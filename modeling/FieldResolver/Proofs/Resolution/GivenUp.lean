/-
**Resolutions that nobody waits for any more.**

A resolution looks whether it was cancelled in front of each stage and in each call, but not before.
So a caller who has given up before the start is told so just where a stage is reached. Where the
template in front of the stages returns a value or fails, and where there is no stage at all, the
field has a value or errors all the same, as though nobody had given up.

* `Program.Gets`: how far a program gets by evaluating templates alone;
* `Resolver.Opens`, `Resolver.runBefore_gets`: what the template in front of the stages makes of a
  resolution; `Resolver.runAfter_gets`: the one behind them ends it;
* `Session.ReachesStage`: whether a resolution gets to its first stage;
* `Session.Explained.resolveField_givenUp`: what a caller is answered who has given up.
-/

import FieldResolver.Proofs.Resolution.Endings

namespace FieldResolver

open Template (Evaluator Outcome Surroundings)

/-! ### Evaluating templates alone -/

/-- How far a program gets by evaluating templates alone: what is left of it, and the evaluator that
has parsed them. -/
inductive Program.Gets {α : Type} (surroundings : Surroundings) :
    Evaluator → Program α → Evaluator → Program α → Prop
  | here (evaluator : Evaluator) (program : Program α) :
      Gets surroundings evaluator program evaluator program
  | evaluate {evaluator last : Evaluator} {source : String} {context : Context}
      {next : Outcome → Context → Program α} {rest : Program α}
      (below : Gets surroundings (evaluator.evaluate surroundings source context).2.2
        (next (evaluator.evaluate surroundings source context).1
          (evaluator.evaluate surroundings source context).2.1) last rest) :
      Gets surroundings evaluator (.evaluate source context next) last rest

namespace Program

variable {α β : Type} {surroundings : Surroundings} {evaluator middle last : Evaluator}
  {program between rest : Program α}

theorem Gets.trans (first : Gets surroundings evaluator program middle between)
    (second : Gets surroundings middle between last rest) :
    Gets surroundings evaluator program last rest := by
  induction first with
  | here => exact second
  | evaluate _ ih => exact .evaluate (ih second)

theorem Gets.map (change : α → β) (gets : Gets surroundings evaluator program last rest) :
    Gets surroundings evaluator (program.map change) last (rest.map change) := by
  induction gets with
  | here evaluator program => exact .here evaluator _
  | evaluate _ ih => exact .evaluate ih

/-- An evaluation that ends a program, whatever the template comes to. -/
theorem Gets.ends {source : String} {context : Context} {next : Outcome → Context → Program α}
    {holds : α → Prop}
    (ends : ∀ outcome context, ∃ result, next outcome context = .done result ∧ holds result) :
    ∃ last result, Gets surroundings evaluator (.evaluate source context next) last
      (.done result) ∧ holds result := by
  obtain ⟨result, done, held⟩ := ends (evaluator.evaluate surroundings source context).1
    (evaluator.evaluate surroundings source context).2.1
  refine ⟨(evaluator.evaluate surroundings source context).2.2, result, .evaluate ?_, held⟩
  rw [done]
  exact .here _ _

end Program

namespace Timeline

variable {α : Type} {dispatcher : Dispatcher} {surroundings : Surroundings} {timeline : Timeline α}
  {evaluator : Evaluator} {task : Nat} {program rest : Program α}

/-- Starting a program starts what is left of it when its templates are evaluated. -/
theorem start_gets (gets : Program.Gets surroundings timeline.evaluator program evaluator rest)
    (cancelAt : Option Nat) :
    start dispatcher surroundings task cancelAt program timeline =
      start dispatcher surroundings task cancelAt rest { timeline with evaluator } := by
  generalize same : timeline.evaluator = first at gets
  induction gets generalizing timeline with
  | here =>
    subst same
    rfl
  | evaluate _ ih =>
    subst same
    exact ih rfl

/-- A program whose caller has given up learns so when it looks. -/
theorem start_isCancelled (timeline : Timeline α) (next : Bool → Program α) :
    start dispatcher surroundings task ((some 0).map (timeline.clock + ·)) (.isCancelled next)
        timeline =
      start dispatcher surroundings task ((some 0).map (timeline.clock + ·)) (next true)
        timeline := by
  have now : (timeline.untilTime ((some 0).map (timeline.clock + ·)) == some 0) = true := by
    simp [untilTime]
  rw [start, now]

/-- A program that ends when it is started has ended. -/
theorem finish_of_start (calls : Nat) {cancelAfter : Option Nat} {result : α}
    (new : ∀ entry ∈ timeline.results, entry.1 ≠ task)
    (ends : start dispatcher surroundings task (cancelAfter.map (timeline.clock + ·)) program
      timeline = start dispatcher surroundings task none (.done result)
        { timeline with evaluator }) :
    timeline.finish dispatcher surroundings task calls cancelAfter program =
        { timeline with evaluator, results := timeline.results ++ [(task, result)] } ∧
      (timeline.finish dispatcher surroundings task calls cancelAfter program).result? task =
        some result := by
  have absent : timeline.results.lookup task = none :=
    List.lookup_eq_none_iff.mpr fun entry member => bne_iff_ne.mpr (new entry member).symm
  have found : (timeline.results ++ [(task, result)]).lookup task = some result := by
    rw [List.lookup_append, absent]
    exact List.lookup_cons_self
  have ended : timeline.finish dispatcher surroundings task calls cancelAfter program =
      { timeline with evaluator, results := timeline.results ++ [(task, result)] } := by
    rw [finish, ends, start, budget, advance, result?, found]
    exact if_pos rfl
  exact ⟨ended, by rw [ended, result?, found]⟩

end Timeline

/-! ### Where resolutions get -/

namespace Resolver

/-- What the template in front of the stages makes of a resolution, by what it comes to. -/
inductive Opens (progress : Progress) (next : Progress → Program Ending) :
    Option Outcome → Program Ending → Prop
  | absent : Opens progress next none (next progress)
  | wrote {outcome : Outcome} (after : Progress) (gives : outcome.value?.isSome)
      (onward : outcome.returned? = none) : Opens progress next (some outcome) (next after)
  | returned {outcome : Outcome} {value : Json} (recorded : List Template.Raised)
      (returns : outcome.returned? = some value) :
      Opens progress next (some outcome) (.done (.completed value recorded))
  | failed {outcome : Outcome} {cause : StageError} (fails : outcome.error? = some cause) :
      Opens progress next (some outcome)
        (.done (.aborted progress.context.result progress.recorded (.aborted beforeName cause)))

section

variable (surroundings : Surroundings) (evaluator : Evaluator) (progress : Progress)

theorem runBefore_gets (before : Option String) (next : Progress → Program Ending) :
    ∃ last rest, Program.Gets surroundings evaluator (runBefore before progress next) last rest ∧
      Opens progress next (before.map fun source =>
        (evaluator.evaluate surroundings source progress.context).1) rest := by
  cases before with
  | none => exact ⟨evaluator, _, .here _ _, .absent⟩
  | some source =>
    refine ⟨_, _, .evaluate (.here _ _), ?_⟩
    have unchanged := evaluator.evaluate_context surroundings source progress.context
    simp only [Option.map_some]
    cases outcome : (evaluator.evaluate surroundings source progress.context).1 with
    | rendered rendered =>
      cases returned : rendered.returned with
      | true =>
        simp only [returned, if_pos]
        exact .returned _ (by rw [Outcome.returned?, returned, if_pos rfl])
      | false =>
        simp only [returned, if_neg Bool.false_ne_true]
        exact .wrote _ rfl (by rw [Outcome.returned?, returned, if_neg Bool.false_ne_true])
    | raised error =>
      rw [unchanged]
      exact .failed rfl
    | failed failure =>
      rw [unchanged]
      exact .failed rfl

/-- The template behind the stages ends a resolution. -/
theorem runAfter_gets (after : Option String) :
    ∃ last ending, Program.Gets surroundings evaluator (runAfter after progress) last
      (.done ending) ∧ ending.report?.isSome := by
  cases after with
  | none => exact ⟨evaluator, _, .here _ _, rfl⟩
  | some source =>
    refine Program.Gets.ends fun outcome context => ?_
    cases outcome with
    | rendered | raised | failed => exact ⟨_, rfl, rfl⟩

end

end Resolver

/-- An end that is not a cancellation gives a result. -/
theorem Ending.field_of_report? {path : List PathStep} {ending : Ending}
    (reports : ending.report?.isSome) :
    ∃ field, FieldResult.ofEnding? path ending = some field := by
  cases ending with
  | completed | aborted => exact ⟨_, rfl⟩
  | cancelled => cases reports

namespace Session

/-- What the template in front of the stages comes to, if there is one. -/
def outcomeBefore (session : Session) (resolver : Resolver) (request : FieldRequest) :
    Option Outcome :=
  resolver.plan.before?.map fun source =>
    (session.timeline.evaluator.evaluate session.surroundings source
      (.ofRequest (resolver.named request))).1

/-- Whether a resolution gets to its first stage: there is one, and the template in front of the
stages gives a value and does not return it. -/
def ReachesStage (session : Session) (resolver : Resolver) (request : FieldRequest) : Prop :=
  resolver.plan.stages ≠ [] ∧ ∀ outcome ∈ session.outcomeBefore resolver request,
    outcome.value?.isSome ∧ outcome.returned? = none

/-- A session that has one more result and else only knows more templates. -/
def answered (session : Session) (evaluator : Evaluator) (result : Option FieldResult) : Session :=
  { session with
    timeline :=
      { session.timeline with
        evaluator, results := session.timeline.results ++ [(session.fields, result)] }
    fields := session.fields + 1 }

section

variable {session : Session} (explained : session.Explained) (resolver : Resolver)
  (request : FieldRequest)

include explained

/-- Fields that were resolved before have other numbers. -/
theorem Explained.new_number : ∀ entry ∈ session.timeline.results, entry.1 ≠ session.fields := by
  obtain ⟨started, all, numbered⟩ := explained
  intro entry member
  obtain ⟨program, _, known, _⟩ := all.results entry member
  exact Nat.ne_of_lt (numbered _ known)

/-- A resolution that ends when it is started is answered at once. -/
theorem Explained.resolveField_of_start {last : Evaluator} (result : Option FieldResult)
    {cancelAfter : Option Nat}
    (ends : Timeline.start session.dispatcher session.surroundings session.fields
        (cancelAfter.map (session.timeline.clock + ·)) (resolver.program request)
        session.timeline =
      Timeline.start session.dispatcher session.surroundings session.fields none (.done result)
        { session.timeline with evaluator := last }) :
    session.resolveField resolver request cancelAfter =
      (result.elim (.error .cancelled) .ok, session.answered last result) := by
  obtain ⟨ended, found⟩ := Timeline.finish_of_start resolver.maxCalls explained.new_number ends
  have answer : ∀ after : Session, after.timeline.result? session.fields = some result →
      after.resultOf session.fields = result.elim (.error .cancelled) .ok := by
    intro after same
    rw [resultOf, same]
    cases result <;> rfl
  refine Prod.ext (answer _ found) ?_
  show ({ session with
    timeline := session.timeline.finish _ _ _ _ _ _, fields := session.fields + 1 } : Session) = _
  rw [ended]
  rfl

/-- One that gets to its end by evaluating templates alone is answered so whenever its caller gives
up. -/
theorem Explained.resolveField_gets {last : Evaluator} {ending : Ending}
    (gets : Program.Gets session.surroundings session.timeline.evaluator
      (resolver.resolution (.ofRequest (resolver.named request))) last (.done ending))
    {field : FieldResult}
    (gives : FieldResult.ofEnding? (resolver.named request).info.responsePath ending = some field)
    (cancelAfter : Option Nat) :
    session.resolveField resolver request cancelAfter =
      (.ok field, session.answered last (some field)) := by
  refine explained.resolveField_of_start resolver request (some field) ?_
  rw [Resolver.program, Timeline.start_gets (gets.map _), Program.map, gives]
  rfl

/-- One that gets to a stage by evaluating templates alone is cancelled there, if its caller has
given up. -/
theorem Explained.resolveField_stopped {last : Evaluator} {next : Bool → Program Ending}
    (gets : Program.Gets session.surroundings session.timeline.evaluator
      (resolver.resolution (.ofRequest (resolver.named request))) last (.isCancelled next))
    (stops : next true = .done .cancelled) :
    session.resolveField resolver request (some 0) =
      (.error .cancelled, session.answered last none) := by
  refine explained.resolveField_of_start resolver request none ?_
  rw [Resolver.program, Timeline.start_gets (gets.map _), Program.map]
  refine (Timeline.start_isCancelled { session.timeline with evaluator := last } _).trans ?_
  rw [stops]
  rfl

/-- One that gets to the stages is cancelled at the first; without any it is answered. -/
theorem Explained.resolveField_onward {opened : Evaluator} {progress : Progress}
    (gets : Program.Gets session.surroundings session.timeline.evaluator
      (resolver.resolution (.ofRequest (resolver.named request))) opened
      (Stage.runAll progress (Resolver.runAfter resolver.plan.after?) resolver.plan.stages)) :
    (resolver.plan.stages ≠ [] → ∃ last,
      session.resolveField resolver request (some 0) =
        (.error .cancelled, session.answered last none)) ∧
    (resolver.plan.stages = [] → ∃ last field, ∀ cancelAfter,
      session.resolveField resolver request cancelAfter =
        (.ok field, session.answered last (some field))) := by
  cases stages : resolver.plan.stages with
  | nil =>
    rw [stages] at gets
    obtain ⟨last, ending, ends, reports⟩ :=
      Resolver.runAfter_gets session.surroundings opened progress resolver.plan.after?
    obtain ⟨field, gives⟩ := Ending.field_of_report? reports
    exact ⟨fun some => absurd rfl some, fun _ =>
      ⟨last, field, explained.resolveField_gets resolver request (gets.trans ends) gives⟩⟩
  | cons stage stages' =>
    rw [stages] at gets
    exact ⟨fun _ => ⟨opened, explained.resolveField_stopped resolver request gets rfl⟩,
      fun none => nomatch none⟩

/-- **What a caller is answered who has given up before the start.** Where a stage is reached, that
the resolution was cancelled. Where none is, the field is answered as though nobody had given up:
with the value that the template in front of the stages returns, with the error by which it fails,
or, if there is no stage, with what the template behind them makes. No data source is called either
way. -/
theorem Explained.resolveField_givenUp :
    (session.ReachesStage resolver request → ∃ last,
      session.resolveField resolver request (some 0) =
        (.error .cancelled, session.answered last none)) ∧
    (¬ session.ReachesStage resolver request → ∃ last field,
      (∀ cancelAfter, session.resolveField resolver request cancelAfter =
        (.ok field, session.answered last (some field))) ∧
      ∀ outcome ∈ session.outcomeBefore resolver request,
        (∀ value, outcome.returned? = some value → field.data = value) ∧
        ∀ cause, outcome.error? = some cause → field.data = .null ∧
          field.errors = [FieldError.ofStageError (resolver.named request).info.responsePath
            (.aborted Resolver.beforeName cause)]) := by
  obtain ⟨opened, rest, gets, opens⟩ := Resolver.runBefore_gets session.surroundings
    session.timeline.evaluator { context := .ofRequest (resolver.named request) }
    resolver.plan.before? fun progress =>
      Stage.runAll progress (Resolver.runAfter resolver.plan.after?) resolver.plan.stages
  change Resolver.Opens _ _ (session.outcomeBefore resolver request) rest at opens
  rw [ReachesStage]
  generalize session.outcomeBefore resolver request = outcome at opens
  cases opens with
  | absent =>
    obtain ⟨stopped, finished⟩ := explained.resolveField_onward resolver request gets
    refine ⟨fun reaches => stopped reaches.1, fun unreached => ?_⟩
    obtain ⟨last, field, same⟩ := finished (not_not.mp fun staged =>
      unreached ⟨staged, fun _ member => nomatch member⟩)
    exact ⟨last, field, same, fun _ member => nomatch member⟩
  | wrote after gives onward =>
    obtain ⟨stopped, finished⟩ := explained.resolveField_onward resolver request gets
    refine ⟨fun reaches => stopped reaches.1, fun unreached => ?_⟩
    obtain ⟨last, field, same⟩ := finished (not_not.mp fun staged =>
      unreached ⟨staged, fun _ member => Option.some.inj member ▸ ⟨gives, onward⟩⟩)
    refine ⟨last, field, same, ?_⟩
    rintro _ ⟨⟩
    refine ⟨fun value returns => (nomatch onward.symm.trans returns), fun cause fails => ?_⟩
    rw [Outcome.value?_of_error? fails] at gives
    cases gives
  | returned recorded returns =>
    refine ⟨fun reaches => ?_, fun _ =>
      ⟨opened, _, explained.resolveField_gets resolver request gets rfl, ?_⟩⟩
    · exact nomatch returns.symm.trans (reaches.2 _ rfl).2
    · rintro _ ⟨⟩
      refine ⟨fun other same => Option.some.inj (returns.symm.trans same), fun cause fails => ?_⟩
      exact nomatch (Outcome.returned?_of_error? fails).symm.trans returns
  | failed fails =>
    refine ⟨fun reaches => ?_, fun _ =>
      ⟨opened, _, explained.resolveField_gets resolver request gets rfl, ?_⟩⟩
    · have gives := (reaches.2 _ rfl).1
      rw [Outcome.value?_of_error? fails] at gives
      cases gives
    · rintro _ ⟨⟩
      refine ⟨fun value returns => ?_, fun other same => ?_⟩
      · exact nomatch (Outcome.returned?_of_error? fails).symm.trans returns
      · cases Option.some.inj (fails.symm.trans same)
        exact ⟨rfl, rfl⟩

end

end Session

/-! ### A template that returns a value to a caller who has given up -/

namespace Leaving

/-- A stage without templates. -/
def stage : Stage where
  name := "item"
  dataSource := "local"

/-- A resolver with the stage and a template in front of it. -/
def resolver (before : Option String) : Resolver where
  typeName := "Query"
  field := "item"
  plan := .pipeline before [stage] none

/-- A session without data sources. -/
def session : Session where
  dispatcher :=
    { sources := []
      services :=
        { launcher := fun _ => .error "no processes here"
          transport := fun _ => .error "no network here"
          database :=
            { connect := fun _ => .error "no database here"
              run := fun _ _ => .error "no database here" } } }
  surroundings := { now := 0, identifier := fun _ => "" }

/-- A template that returns a value. -/
def source : String := "#return(1)"

theorem returns : ((session.outcomeBefore (resolver (some source)) {}).bind
    Outcome.returned?).map Json.render = some "1" := by
  decide +kernel

/-- **The caller gets the value**, while one who has given up fields that are resolved at the same
time gets none. -/
theorem value_after_giving_up : ∃ field,
    (session.resolveField (resolver (some source)) {} (some 0)).1 = .ok field ∧
      field.data.render = "1" ∧ field.errors.length = 0 ∧
      (session.resolveFields [(resolver (some source), {})] (some 0)).1 = .error .cancelled := by
  have evaluated : ((session.resolveField (resolver (some source)) {} (some 0)).1.toOption.map
      fun field => (field.data.render, field.errors.length)) = some ("1", 0) := by decide +kernel
  cases answer : (session.resolveField (resolver (some source)) {} (some 0)).1 with
  | error =>
    rw [answer] at evaluated
    cases evaluated
  | ok field =>
    rw [answer] at evaluated
    have both := Prod.mk.inj (Option.some.inj evaluated)
    exact ⟨field, rfl, both.1, both.2, rfl⟩

/-- With the template a field is answered with its value whenever the caller gives up, without it
the resolution is cancelled at the stage. -/
theorem answered_either_way :
    (∃ field, ∀ cancelAfter,
      (session.resolveField (resolver (some source)) {} cancelAfter).1 = .ok field ∧
        field.data.render = "1") ∧
    (session.resolveField (resolver none) {} (some 0)).1 = .error .cancelled := by
  have explained := Session.explained_new session.dispatcher session.surroundings
  have known := returns
  obtain ⟨value, returned, rendered⟩ := Option.map_eq_some_iff.mp known
  obtain ⟨outcome, same, returned⟩ := Option.bind_eq_some_iff.mp returned
  have unreached : ¬ session.ReachesStage (resolver (some source)) {} := fun reaches =>
    nomatch returned.symm.trans (reaches.2 outcome same).2
  obtain ⟨last, field, answers, before⟩ :=
    (explained.resolveField_givenUp (resolver (some source)) {}).2 unreached
  obtain ⟨opened, cancelled⟩ := (explained.resolveField_givenUp (resolver none) {}).1
    ⟨List.cons_ne_nil _ _, fun _ member => nomatch member⟩
  refine ⟨⟨field, fun cancelAfter => ⟨congrArg Prod.fst (answers cancelAfter), ?_⟩⟩,
    congrArg Prod.fst cancelled⟩
  rw [(before outcome same).1 value returned, rendered]

end Leaving

end FieldResolver

/-
**Calls, data and errors of resolutions.**

An uncancelled resolution ends with a value or by an error. Which of them, and with which data, is
told by its course: by what the templates came to and what the data sources answered.

* `StagesEnd`, `Course.Ends`: the data and the error of an end, by the course;
* `Course.Of.last_moment`: an error that ends a resolution is the error of the last moment;
* `Resolver.uncancelled_traces`: the calls, the data and the errors of every uncancelled trace.
-/

import FieldResolver.Proofs.Resolution.Courses
import FieldResolver.Proofs.Resolution.Recorded

namespace FieldResolver

open Program

namespace Moment

/-- Whether the resolution learns in a moment that it was cancelled. -/
def cancels (moment : Moment) : Bool := moment.event.cancels

/-- The recorded errors that are kept in a moment. -/
def kept (moment : Moment) : List Template.Raised := moment.event.kept

/-- The error of a moment: of the template that was evaluated, or of the call. -/
def error? : Moment → Option StageError
  | .evaluated evaluation => evaluation.outcome.error?
  | .called _ (.failure failure) => some (.call failure)
  | _ => none

end Moment

/-! ### Ends -/

/-- The data and the error with which stages and the template behind them end. -/
inductive StagesEnd (last : Option String) (stages : List Stage) (output : Json)
    (courses : List StageCourse) (after : Option Evaluation) : Json → Option StageError → Prop where
  /-- A stage failed: the data is what it was answered, or else `null`. -/
  | failed {front : List StageCourse} {stage : StageCourse} {cause : StageError}
      (split : courses = front ++ [stage]) (fails : stage.passage = .failure cause)
      (unreached : after = none) :
      StagesEnd last stages output courses after stage.result
        (some (.aborted stage.stage.name cause))
  /-- All stages have an output and nothing is behind them: the data is the last output. -/
  | completed (all : courses.map StageCourse.stage = stages)
      (passed : ∀ stage ∈ courses, ∃ value, stage.passage = .output value)
      (absent : last = none) (unreached : after = none) :
      StagesEnd last stages output courses after (outputBehind output courses) none
  /-- All stages have an output, and the data is the value of the template behind them. -/
  | rendered {evaluation : Evaluation} {value : Json}
      (all : courses.map StageCourse.stage = stages)
      (passed : ∀ stage ∈ courses, ∃ value, stage.passage = .output value)
      (evaluated : after = some evaluation) (gives : evaluation.outcome.value? = some value) :
      StagesEnd last stages output courses after value none
  /-- All stages have an output, but the template behind them failed: the data is the last
  output. -/
  | broken {evaluation : Evaluation} {cause : StageError}
      (all : courses.map StageCourse.stage = stages)
      (passed : ∀ stage ∈ courses, ∃ value, stage.passage = .output value)
      (evaluated : after = some evaluation) (fails : evaluation.outcome.error? = some cause) :
      StagesEnd last stages output courses after (outputBehind output courses)
        (some (.aborted Resolver.afterName cause))

/-- The data and the error with which a resolution ends. -/
inductive Course.Ends (course : Course) (plan : Plan) : Json → Option StageError → Prop where
  /-- The template in front of the stages returned the data. -/
  | returned {before : Evaluation} {value : Json} (evaluated : course.before = some before)
      (returns : before.outcome.returned? = some value) (unreached : course.stages = [])
      (unfinished : course.after = none) : Ends course plan value none
  /-- The template in front of the stages failed. -/
  | broken {before : Evaluation} {cause : StageError} (evaluated : course.before = some before)
      (fails : before.outcome.error? = some cause) (unreached : course.stages = [])
      (unfinished : course.after = none) :
      Ends course plan .null (some (.aborted Resolver.beforeName cause))
  /-- The resolution went on to the stages. -/
  | stages {data : Json} {error : Option StageError}
      (onward : ∀ before ∈ course.before,
        before.outcome.value?.isSome ∧ before.outcome.returned? = none)
      (ends :
        StagesEnd plan.after? plan.stages course.start course.stages course.after data error) :
      Ends course plan data error

/-- The data and the error of an end; there are none of a resolution that was cancelled. -/
def Ending.report? : Ending → Option (Json × Option StageError)
  | .completed value _ => some (value, none)
  | .aborted data _ error => some (data, some error)
  | .cancelled => none

/-- A further stage in front of stages that end. -/
theorem StagesEnd.cons {last : Option String} {stages : List Stage} {output value : Json}
    {courses : List StageCourse} {after : Option Evaluation} {data : Json}
    {error : Option StageError} {stage : StageCourse} (passes : stage.passage = .output value)
    (ends : StagesEnd last stages value courses after data error) :
    StagesEnd last (stage.stage :: stages) output (stage :: courses) after data error := by
  have same : outputBehind output (stage :: courses) = outputBehind value courses := by
    rw [outputBehind, StageCourse.output, passes]
  have both (passed : ∀ stage ∈ courses, ∃ value, stage.passage = .output value) :
      ∀ course ∈ stage :: courses, ∃ value, course.passage = .output value := by
    rintro course (_ | ⟨_, member⟩)
    · exact ⟨value, passes⟩
    · exact passed course member
  cases ends with
  | failed split fails unreached =>
    have split := congrArg (List.cons stage) split
    rw [← List.cons_append] at split
    exact .failed split fails unreached
  | completed all passed absent unreached =>
    rw [← same]
    exact .completed (congrArg (List.cons stage.stage) all) (both passed) absent unreached
  | rendered all passed evaluated gives =>
    exact .rendered (congrArg (List.cons stage.stage) all) (both passed) evaluated gives
  | broken all passed evaluated fails =>
    rw [← same]
    exact .broken (congrArg (List.cons stage.stage) all) (both passed) evaluated fails

/-- **Where stages end.** -/
theorem Proceeds.ends {last : Option String} {base : Context} {output : Json}
    {stash : Dict Json} {stages : List Stage} {courses : List StageCourse} {stopped : Bool}
    {after : Option Evaluation} {ending : Ending} {data : Json} {error : Option StageError}
    (proceeds : Proceeds last (base.between output stash) stages courses stopped after ending)
    (reports : ending.report? = some (data, error)) :
    StagesEnd last stages output courses after data error := by
  generalize same : base.between output stash = context at proceeds
  induction proceeds generalizing output stash with
  | @passed context stage stages course courses stopped after ending value here passes rest ih =>
    subst same
    have left : base.between value (stashBehind stash course.evaluations) =
        course.leaves (base.between output stash) value := rfl
    rw [← here.stage_eq]
    exact .cons passes (ih reports left)
  | failed recorded here fails =>
    cases reports
    exact .failed (List.nil_append _).symm fails rfl
  | cancelled | stopped => cases reports
  | completed recorded absent =>
    subst same
    cases reports
    exact .completed rfl (fun _ member => nomatch member) absent rfl
  | rendered recorded source genuine sees gives =>
    cases reports
    exact .rendered rfl (fun _ member => nomatch member) rfl gives
  | broken recorded source genuine sees fails =>
    subst same
    cases reports
    exact .broken rfl (fun _ member => nomatch member) rfl fails

/-- **Where a resolution ends.** -/
theorem Course.Of.ends {course : Course} {plan : Plan} {context : Context} {ending : Ending}
    {data : Json} {error : Option StageError} (here : course.Of plan context ending)
    (begins : context = context.between .null context.stash)
    (reports : ending.report? = some (data, error)) : course.Ends plan data error := by
  cases here with
  | direct absent rest =>
    rw [begins] at rest
    exact .stages (fun _ member => nomatch member) (rest.ends reports)
  | @begun before value stages stopped after ending source genuine sees gives onward rest =>
    have starts : Course.start { before := some before, stages, stopped, after } = value :=
      start_of_value rfl gives
    rw [genuine.completeStage_after sees] at rest
    refine .stages ?_ (starts ▸ rest.ends reports)
    rintro _ ⟨⟩
    exact ⟨by rw [gives]; rfl, onward⟩
  | returned recorded source genuine sees returns =>
    cases reports
    exact .returned rfl returns rfl rfl
  | broken recorded source genuine sees fails =>
    cases reports
    rw [begins]
    exact .broken rfl fails rfl rfl

/-! ### The last moment -/

/-- Whether moments end with an error. -/
def EndsWith (moments : List Moment) (cause : StageError) : Prop :=
  ∃ earlier last, moments = earlier ++ [last] ∧ last.error? = some cause

theorem EndsWith.behind {moments : List Moment} {cause : StageError} (ends : EndsWith moments cause)
    (before : List Moment) : EndsWith (before ++ moments) cause := by
  obtain ⟨earlier, last, same, error⟩ := ends
  exact ⟨before ++ earlier, last, by rw [same, List.append_assoc], error⟩

theorem endsWith_evaluated {evaluation : Evaluation} {cause : StageError}
    (fails : evaluation.outcome.error? = some cause) :
    EndsWith [.evaluated evaluation] cause :=
  ⟨[], .evaluated evaluation, rfl, fails⟩

/-- A stage that failed does nothing after what failed. -/
theorem StageCourse.Of.last_moment {course : StageCourse} {stage : Stage} {context : Context}
    {cause : StageError} (here : course.Of stage context)
    (fails : course.passage = .failure cause) : EndsWith course.moments cause := by
  obtain ⟨response, answered, error⟩ | ⟨silent, troubled⟩ := passage_failure fails
  · have moments : course.moments = (.looked false :: (course.request.toList.map .evaluated ++
        course.call.toList.map fun sent => .called sent.1 sent.2)) ++ [.evaluated response] := by
      simp [StageCourse.moments, StageCourse.steps, Option.mem_def.mp answered]
    rw [moments]
    exact (endsWith_evaluated error).behind _
  · obtain ⟨request, asked, error⟩ | ⟨call, failure, called, rfl⟩ := trouble_eq_some troubled
    · -- Without a request there was no call either.
      have unsent : course.call = none := by
        rw [← Option.not_isSome_iff_eq_none, here.sends_iff, StageCourse.sends,
          Option.mem_def.mp asked]
        simp [Template.Outcome.value?_of_error? error]
      have moments : course.moments = [.looked false] ++ [.evaluated request] := by
        simp [StageCourse.moments, StageCourse.steps, Option.mem_def.mp asked, unsent, silent]
      rw [moments]
      exact (endsWith_evaluated error).behind _
    · have moments : course.moments = (.looked false :: course.request.toList.map .evaluated) ++
          [.called call (.failure failure)] := by
        simp [StageCourse.moments, StageCourse.steps, called, silent]
      rw [moments]
      exact EndsWith.behind ⟨[], _, rfl, rfl⟩ _

/-- Stages that end by an error do nothing after what failed. -/
theorem Proceeds.last_moment {last : Option String} {context : Context} {stages : List Stage}
    {courses : List StageCourse} {stopped : Bool} {after : Option Evaluation} {ending : Ending}
    {data : Json} {name : String} {cause : StageError}
    (proceeds : Proceeds last context stages courses stopped after ending)
    (reports : ending.report? = some (data, some (.aborted name cause))) :
    EndsWith (courses.flatMap StageCourse.moments ++ momentsBehind stopped after) cause := by
  induction proceeds with
  | passed here passes rest ih =>
    rw [List.flatMap_cons, List.append_assoc]
    exact (ih reports).behind _
  | failed recorded here fails =>
    cases reports
    simpa [momentsBehind] using here.last_moment fails
  | cancelled | stopped | completed | rendered => cases reports
  | broken recorded source genuine sees fails =>
    cases reports
    exact endsWith_evaluated fails

/-- **A resolution that an error ended does nothing after what failed.** -/
theorem Course.Of.last_moment {course : Course} {plan : Plan} {context : Context}
    {ending : Ending} {data : Json} {name : String} {cause : StageError}
    (here : course.Of plan context ending)
    (reports : ending.report? = some (data, some (.aborted name cause))) :
    EndsWith course.moments cause := by
  cases here with
  | direct absent rest => exact rest.last_moment reports
  | @begun before value stages stopped after ending source genuine sees gives onward rest =>
    exact (rest.last_moment reports).behind [.evaluated before]
  | returned => cases reports
  | broken recorded source genuine sees fails =>
    cases reports
    exact endsWith_evaluated fails

/-! ### Calls -/

/-- When a stage calls its data source: it has no request template, or that wrote a request. -/
theorem StageCourse.Of.call_isSome {course : StageCourse} {stage : Stage} {context : Context}
    (here : course.Of stage context) :
    course.call.isSome ↔ stage.request = none ∨
      ∃ request ∈ course.request, ∃ rendered, request.outcome = .rendered rendered ∧
        rendered.returned = false := by
  rw [here.sends_iff, StageCourse.sends, ← here.request_source]
  cases course.request with
  | none => simp
  | some request =>
    cases outcome : request.outcome <;>
      simp [outcome, Template.Outcome.value?, Template.Outcome.returned?]

/-- The calls among the moments of a course: at most one for each stage, in order. -/
theorem Course.calls_moments (course : Course) :
    course.moments.filterMap Moment.call? =
      course.stages.filterMap fun stage => stage.call.map Prod.fst := by
  have none (evaluations : List Evaluation) :
      (evaluations.map Moment.evaluated).filterMap Moment.call? = [] := by
    rw [List.filterMap_map]
    exact List.filterMap_eq_nil_iff.mpr fun _ _ => rfl
  have steps (stage : StageCourse) :
      stage.steps.filterMap Moment.call? = (stage.call.map Prod.fst).toList := by
    rw [StageCourse.steps, List.filterMap_append, List.filterMap_append, none, none,
      List.append_nil, List.nil_append]
    cases stage.call <;> rfl
  rw [filterMap_moments course fun _ => rfl, none, none, List.nil_append, List.append_nil]
  simp only [steps]
  exact (List.filterMap_eq_flatMap_toList _ _).symm

/-! ### Uncancelled resolutions -/

/-- The result of an end has the data of the end. -/
theorem Ending.report?_of_field {path : List PathStep} {ending : Ending} {field : FieldResult}
    (same : FieldResult.ofEnding? path ending = some field) :
    ending.report? = some (field.data, ending.error?) := by
  cases ending with
  | completed | aborted =>
    cases same
    rfl
  | cancelled => cases same

/-- **The calls, the data and the errors of a resolution** that was not cancelled. The stages that
are reached are the first ones, and each of them calls its data source once, if it has no request
template or if that wrote a request, and else not at all. The errors are those that were kept, and
behind them the one that ended the resolution, if one did; that is the error of the last moment. -/
theorem Resolver.uncancelled_traces {resolver : Resolver} {request : FieldRequest}
    {moments : List Moment} {result : Option FieldResult}
    (trace : (resolver.program request).Traces moments result)
    (uncancelled : ∀ moment ∈ moments, moment.cancels = false) :
    ∃ (course : Course) (field : FieldResult) (error : Option StageError),
      result = some field ∧ course.moments = moments ∧ course.Follows resolver.plan ∧
      moments.filterMap Moment.call? =
        course.stages.filterMap (fun stage => stage.call.map Prod.fst) ∧
      (∀ stage ∈ course.stages, stage.call.isSome ↔ stage.stage.request = none ∨
        ∃ request ∈ stage.request, ∃ rendered, request.outcome = .rendered rendered ∧
          rendered.returned = false) ∧
      course.Ends resolver.plan field.data error ∧
      (∀ name cause, error = some (.aborted name cause) → EndsWith moments cause) ∧
      let path := (resolver.named request).info.responsePath
      field.errors = (moments.flatMap Moment.kept).map (FieldError.ofRaised path) ++
        (error.map (FieldError.ofStageError path)).toList := by
  obtain ⟨ending, below, rfl⟩ := traces_map trace
  have live : (moments.map Moment.event).any Event.cancels = false := by
    rw [List.any_map, List.any_eq_false]
    exact fun moment member => by
      rw [Function.comp_apply, ← Moment.cancels, uncancelled moment member]
      exact Bool.false_ne_true
  have accounts := resolver.resolution_accounts _ _ ending below.runs
  rw [live, if_neg Bool.false_ne_true, List.nil_append, List.flatMap_map] at accounts
  obtain ⟨field, same, errors⟩ :=
    errors_of_ending (resolver.named request).info.responsePath accounts
  have reports := Ending.report?_of_field same
  obtain ⟨course, here, rfl⟩ := resolution_traces below
  have begins : Context.ofRequest (resolver.named request) =
      (Context.ofRequest (resolver.named request)).between .null [] := rfl
  refine ⟨course, field, _, same, rfl, here.follows begins, course.calls_moments, ?_,
    here.ends begins reports, ?_, errors⟩
  · intro stage member
    obtain ⟨front, back, split⟩ := List.mem_iff_append.mp member
    exact ((here.context_eq begins).1 front stage back split).call_isSome
  · intro name cause isAborted
    exact here.last_moment (isAborted ▸ reports)

/-! ### A call that fails behind one that is answered -/

namespace Failing

/-- A stage without templates. -/
def stage (name source : String) : Stage where
  name := name
  dataSource := source

/-- A resolver with two stages. -/
def resolver : Resolver where
  typeName := "Query"
  field := "item"
  plan := .pipeline none [stage "first" "cache", stage "second" "store"] none

/-- The failure of the second call. -/
def failure : CallFailure := Dispatcher.notRegistered "store"

/-- The first call is answered and the second one fails. -/
theorem exists_trace : ∃ first second field,
    (resolver.program {}).Traces
        [.looked false, .called first (.value (.bool true)), .looked false,
          .called second (.failure failure)] (some field) ∧
      field.data = .null ∧ field.errors.map FieldError.message = [failure.message] :=
  ⟨_, _, _, .look false (.call (.value (.bool true)) (.look false
    (.call (.failure failure) (.done _)))), rfl, rfl⟩

/-- **The error of the second call ends the resolution** and is the only one. -/
theorem call_failure_reported : ∃ (moments : List Moment) (field : FieldResult) (course : Course)
    (error : Option StageError),
    (resolver.program {}).Traces moments (some field) ∧
      (∀ moment ∈ moments, moment.cancels = false) ∧ course.moments = moments ∧
      course.Ends resolver.plan .null error ∧
      field.errors =
        (error.map (FieldError.ofStageError (resolver.named {}).info.responsePath)).toList ∧
      field.errors.map FieldError.message = [failure.message] := by
  obtain ⟨first, second, field, trace, empty, message⟩ := exists_trace
  have uncancelled : ∀ moment ∈ [Moment.looked false, .called first (.value (.bool true)),
      .looked false, .called second (.failure failure)], moment.cancels = false := by
    simp [Moment.cancels, Moment.event, Event.cancels]
  obtain ⟨course, other, error, same, moments, _, _, _, ends, _, errors⟩ :=
    resolver.uncancelled_traces trace uncancelled
  cases same
  rw [empty] at ends
  exact ⟨_, field, course, error, trace, uncancelled, moments, ends, errors, message⟩

end Failing

end FieldResolver

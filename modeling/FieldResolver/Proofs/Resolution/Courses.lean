/-
**Courses of resolutions.**

A course sorts the moments of a trace by what they belong to: the template in front of the stages,
the stages that were reached, and the template behind them.

* `Proceeds`: how stages and the template behind them follow on each other, each in the context that
  the one before has left;
* `Course.Of`: the courses of a plan, with the ends that they come to;
* `Resolver.resolution_traces`: every trace of a resolution has such a course;
* `Proceeds.context_eq`, `Proceeds.handed`: the contexts of the stages, and how the stash gets from
  each evaluation to the next.
-/

import FieldResolver.Proofs.Resolution.StageCourse

namespace FieldResolver

open Program

/-! ### The stages in order -/

/-- How stages and the template behind them follow on each other from a context, up to an end. -/
inductive Proceeds (last : Option String) :
    Context → List Stage → List StageCourse → Bool → Option Evaluation → Ending → Prop where
  | passed {context : Context} {stage : Stage} {stages : List Stage} {course : StageCourse}
      {courses : List StageCourse} {stopped : Bool} {after : Option Evaluation} {ending : Ending}
      {value : Json} (here : course.Of stage context) (passes : course.passage = .output value)
      (rest : Proceeds last (course.leaves context value) stages courses stopped after ending) :
      Proceeds last context (stage :: stages) (course :: courses) stopped after ending
  | failed {context : Context} {stage : Stage} {stages : List Stage} {course : StageCourse}
      {cause : StageError} (recorded : List Template.Raised) (here : course.Of stage context)
      (fails : course.passage = .failure cause) :
      Proceeds last context (stage :: stages) [course] false none
        (.aborted course.result recorded (.aborted course.stage.name cause))
  | cancelled {context : Context} {stage : Stage} {stages : List Stage} {course : StageCourse}
      (here : course.Of stage context) (cancels : course.passage = .cancelled) :
      Proceeds last context (stage :: stages) [course] false none .cancelled
  | stopped {context : Context} {stage : Stage} {stages : List Stage} :
      Proceeds last context (stage :: stages) [] true none .cancelled
  | completed {context : Context} (recorded : List Template.Raised) (absent : last = none) :
      Proceeds last context [] [] false none (.completed context.result recorded)
  | rendered {context : Context} {after : Evaluation} {value : Json}
      (recorded : List Template.Raised) (source : last = some after.source)
      (genuine : after.Genuine) (sees : after.context = context)
      (gives : after.outcome.value? = some value) :
      Proceeds last context [] [] false (some after) (.completed value recorded)
  | broken {context : Context} {after : Evaluation} {cause : StageError}
      (recorded : List Template.Raised) (source : last = some after.source)
      (genuine : after.Genuine) (sees : after.context = context)
      (fails : after.outcome.error? = some cause) :
      Proceeds last context [] [] false (some after)
        (.aborted context.result recorded (.aborted Resolver.afterName cause))

/-- What happened behind the stages. -/
def momentsBehind (stopped : Bool) (after : Option Evaluation) : List Moment :=
  (if stopped then [.looked true] else []) ++ after.toList.map .evaluated

section

variable {last : Option String} {progress : Progress} {moments : List Moment} {ending : Ending}

/-- The template behind the stages in a trace. -/
theorem Resolver.runAfter_traces (trace : (runAfter last progress).Traces moments ending) :
    ∃ after, Proceeds last progress.context [] [] false after ending ∧
      moments = momentsBehind false after := by
  unfold runAfter at trace
  cases last with
  | none =>
    cases trace
    exact ⟨none, .completed progress.recorded rfl, rfl⟩
  | some text =>
    obtain ⟨after, moments, rfl, genuine, sees, rfl, rest⟩ := traces_evaluate trace
    cases outcome : after.outcome with
    | rendered rendered =>
      rw [outcome] at rest
      cases rest
      exact ⟨some after, .rendered _ rfl genuine sees (by rw [outcome]; rfl), rfl⟩
    | raised error =>
      rw [outcome] at rest
      cases rest
      rw [Progress.abort, Progress.withContext, genuine.after_eq, sees]
      exact ⟨some after, .broken _ rfl genuine sees (by rw [outcome]; rfl), rfl⟩
    | failed failure =>
      rw [outcome] at rest
      cases rest
      rw [Progress.abort, Progress.withContext, genuine.after_eq, sees]
      exact ⟨some after, .broken _ rfl genuine sees (by rw [outcome]; rfl), rfl⟩

/-- The stages in a trace, with what is behind them. -/
theorem Stage.runAll_traces {stages : List Stage}
    (trace : (runAll progress (Resolver.runAfter last) stages).Traces moments ending) :
    ∃ courses stopped after, Proceeds last progress.context stages courses stopped after ending ∧
      moments = courses.flatMap StageCourse.moments ++ momentsBehind stopped after := by
  induction stages generalizing progress moments with
  | nil =>
    obtain ⟨after, proceeds, same⟩ := Resolver.runAfter_traces trace
    exact ⟨[], false, after, proceeds, same⟩
  | cons stage stages ih =>
    obtain _ | _ | _ | ⟨found, trace⟩ := trace
    rename_i moments
    cases found with
    | true =>
      cases trace
      exact ⟨[], true, none, .stopped, rfl⟩
    | false =>
      obtain ⟨course, here, goes⟩ := run_traces trace
      unfold StageCourse.GoesOn at goes
      cases passage : course.passage with
      | output value =>
        rw [passage] at goes
        obtain ⟨rest, after, rfl, left, below⟩ := goes
        obtain ⟨courses, stopped, behind, proceeds, rfl⟩ := ih below
        rw [left] at proceeds
        refine ⟨course :: courses, stopped, behind, .passed here passage proceeds, ?_⟩
        simp [StageCourse.moments]
      | failure cause =>
        rw [passage] at goes
        obtain ⟨rfl, recorded, rfl⟩ := goes
        exact ⟨[course], false, none, .failed recorded here passage,
          by simp [StageCourse.moments, momentsBehind]⟩
      | cancelled =>
        rw [passage] at goes
        obtain ⟨rfl, rfl⟩ := goes
        exact ⟨[course], false, none, .cancelled here passage,
          by simp [StageCourse.moments, momentsBehind]⟩

end

/-! ### Whole resolutions -/

/-- What happened in a resolution. -/
structure Course where
  /-- The evaluation of the template in front of the stages. -/
  before : Option Evaluation := none
  /-- The stages that were reached, in order. -/
  stages : List StageCourse := []
  /-- Whether a further stage was not reached because the resolution was cancelled. -/
  stopped : Bool := false
  /-- The evaluation of the template behind the stages. -/
  after : Option Evaluation := none

namespace Course

/-- What happened, in order. -/
def moments (course : Course) : List Moment :=
  course.before.toList.map .evaluated ++ course.stages.flatMap StageCourse.moments ++
    momentsBehind course.stopped course.after

/-- The evaluations in order. -/
def evaluations (course : Course) : List Evaluation :=
  course.before.toList ++ course.stages.flatMap StageCourse.evaluations ++ course.after.toList

/-- The courses of a plan from a context, with the ends that they come to. -/
inductive Of (plan : Plan) (context : Context) : Course → Ending → Prop where
  | direct {stages : List StageCourse} {stopped : Bool} {after : Option Evaluation}
      {ending : Ending} (absent : plan.before? = none)
      (rest : Proceeds plan.after? context plan.stages stages stopped after ending) :
      Of plan context { stages, stopped, after } ending
  | begun {before : Evaluation} {value : Json} {stages : List StageCourse} {stopped : Bool}
      {after : Option Evaluation} {ending : Ending} (source : plan.before? = some before.source)
      (genuine : before.Genuine) (sees : before.context = context)
      (gives : before.outcome.value? = some value) (onward : before.outcome.returned? = none)
      (rest : Proceeds plan.after? (before.after.completeStage value) plan.stages stages stopped
        after ending) :
      Of plan context { before := some before, stages, stopped, after } ending
  | returned {before : Evaluation} {value : Json} (recorded : List Template.Raised)
      (source : plan.before? = some before.source) (genuine : before.Genuine)
      (sees : before.context = context) (returns : before.outcome.returned? = some value) :
      Of plan context { before := some before } (.completed value recorded)
  | broken {before : Evaluation} {cause : StageError} (recorded : List Template.Raised)
      (source : plan.before? = some before.source) (genuine : before.Genuine)
      (sees : before.context = context) (fails : before.outcome.error? = some cause) :
      Of plan context { before := some before }
        (.aborted context.result recorded (.aborted Resolver.beforeName cause))

end Course

/-- **Every trace of a resolution has a course.** -/
theorem Resolver.resolution_traces {resolver : Resolver} {context : Context}
    {moments : List Moment} {ending : Ending}
    (trace : (resolver.resolution context).Traces moments ending) :
    ∃ course : Course, course.Of resolver.plan context ending ∧ course.moments = moments := by
  unfold resolution runBefore at trace
  cases first : resolver.plan.before? with
  | none =>
    rw [first] at trace
    obtain ⟨stages, stopped, after, proceeds, rfl⟩ := Stage.runAll_traces trace
    exact ⟨_, .direct first proceeds, rfl⟩
  | some text =>
    rw [first] at trace
    obtain ⟨before, moments, rfl, genuine, sees, rfl, rest⟩ := traces_evaluate trace
    cases outcome : before.outcome with
    | rendered rendered =>
      rw [outcome] at rest
      cases returned : rendered.returned with
      | true =>
        simp only [returned, if_true] at rest
        cases rest
        exact ⟨_, .returned _ first genuine sees
          (by simp [outcome, Template.Outcome.returned?, returned]), rfl⟩
      | false =>
        simp only [returned] at rest
        obtain ⟨stages, stopped, after, proceeds, rfl⟩ := Stage.runAll_traces rest
        have gives : before.outcome.value? = some rendered.value := by rw [outcome]; rfl
        have onward : before.outcome.returned? = none := by
          simp [outcome, Template.Outcome.returned?, returned]
        exact ⟨_, .begun first genuine sees gives onward proceeds, rfl⟩
    | raised error =>
      rw [outcome] at rest
      cases rest
      rw [Progress.abort, Progress.withContext, genuine.after_eq, sees]
      exact ⟨_, .broken _ first genuine sees (by rw [outcome]; rfl), rfl⟩
    | failed failure =>
      rw [outcome] at rest
      cases rest
      rw [Progress.abort, Progress.withContext, genuine.after_eq, sees]
      exact ⟨_, .broken _ first genuine sees (by rw [outcome]; rfl), rfl⟩

/-! ### The order of the stages -/

/-- The output of a stage, or `null` if it came to none. -/
def StageCourse.output (course : StageCourse) : Json :=
  match course.passage with
  | .output value => value
  | _ => .null

/-- The output of the last of some stages, or what there was in front of them. -/
def outputBehind (output : Json) : List StageCourse → Json
  | [] => output
  | course :: rest => outputBehind course.output rest

/-- Where there is only one stage. -/
theorem split_of_single {only course : StageCourse} {front back : List StageCourse}
    (split : [only] = front ++ course :: back) : front = [] ∧ course = only := by
  obtain ⟨rfl, first⟩ | ⟨_, rfl, below⟩ := List.cons_eq_append_iff.mp split
  · cases first
    exact ⟨rfl, rfl⟩
  · simp at below

/-- The stages that are reached are the first ones, and all but the last have an output. -/
theorem Proceeds.reached {last : Option String} {context : Context} {stages : List Stage}
    {courses : List StageCourse} {stopped : Bool} {after : Option Evaluation} {ending : Ending}
    (proceeds : Proceeds last context stages courses stopped after ending) :
    courses.map StageCourse.stage <+: stages ∧
      ∀ front course back, courses = front ++ course :: back →
        ∀ passed ∈ front, ∃ value, passed.passage = .output value := by
  induction proceeds with
  | passed here passes rest ih =>
    obtain ⟨first, outputs⟩ := ih
    refine ⟨?_, fun front course back split => ?_⟩
    · rw [List.map_cons, here.stage_eq]
      exact (List.prefix_cons_inj _).mpr first
    · obtain ⟨rfl, _⟩ | ⟨front, rfl, below⟩ := List.cons_eq_append_iff.mp split
      · exact fun _ member => nomatch member
      · rintro passed (_ | ⟨_, member⟩)
        · exact ⟨_, passes⟩
        · exact outputs front course back below passed member
  | failed _ here | cancelled here =>
    refine ⟨by simp [here.stage_eq], fun front course back split => ?_⟩
    obtain ⟨rfl, _⟩ := split_of_single split
    exact fun _ member => nomatch member
  | stopped | completed | rendered | broken =>
    exact ⟨List.nil_prefix, fun front course back split => by simp at split⟩

/-! ### The contexts of the stages -/

/-- A context between two stages: it has an output and a stash, but no error. -/
def Context.between (context : Context) (output : Json) (stash : Dict Json) : Context :=
  { context with error := none, previous := output, result := output, stash }

/-- The context behind a template is one between two stages. -/
theorem Evaluation.Genuine.completeStage_after {evaluation : Evaluation} {context : Context}
    (genuine : evaluation.Genuine) (sees : evaluation.context = context) (value : Json) :
    evaluation.after.completeStage value = context.between value evaluation.after.stash := by
  rw [genuine.after_eq, sees]
  rfl

/-- **Each stage is in the context that the stages in front of it have left**: in what there was in
front of them all, with the last output and the last stash. -/
theorem Proceeds.context_eq {last : Option String} {base : Context} {output : Json}
    {stash : Dict Json} {stages : List Stage} {courses : List StageCourse} {stopped : Bool}
    {after : Option Evaluation} {ending : Ending}
    (proceeds : Proceeds last (base.between output stash) stages courses stopped after ending) :
    (∀ front course back, courses = front ++ course :: back →
      course.Of course.stage (base.between (outputBehind output front)
        (stashBehind stash (front.flatMap StageCourse.evaluations)))) ∧
      ∀ evaluation ∈ after, evaluation.Genuine ∧ some evaluation.source = last ∧
        evaluation.context = base.between (outputBehind output courses)
          (stashBehind stash (courses.flatMap StageCourse.evaluations)) := by
  generalize same : base.between output stash = context at proceeds
  induction proceeds generalizing output stash with
  | @passed context stage stages course courses stopped after ending value here passes rest ih =>
    subst same
    have left : base.between course.output (stashBehind stash course.evaluations) =
        course.leaves (base.between output stash) value := by
      rw [StageCourse.output, passes]
      rfl
    obtain ⟨behind, final⟩ := ih left
    refine ⟨fun front passed back split => ?_, fun evaluation member => ?_⟩
    · obtain ⟨rfl, first⟩ | ⟨front, rfl, below⟩ := List.cons_eq_append_iff.mp split
      · cases first
        exact here.stage_eq ▸ here
      · rw [List.flatMap_cons, stashBehind_append]
        exact behind front passed back below
    · rw [List.flatMap_cons, stashBehind_append]
      exact final evaluation member
  | failed _ here | cancelled here =>
    refine ⟨fun front passed back split => ?_, fun _ member => nomatch member⟩
    obtain ⟨rfl, rfl⟩ := split_of_single split
    exact same ▸ here.stage_eq ▸ here
  | stopped | completed =>
    exact ⟨fun front course back split => by simp at split, fun _ member => nomatch member⟩
  | rendered recorded source genuine sees | broken recorded source genuine sees =>
    refine ⟨fun front course back split => by simp at split, fun evaluation member => ?_⟩
    cases member
    exact ⟨genuine, source.symm, sees.trans same.symm⟩

/-! ### The stash -/

/-- Whether evaluations hand a stash on: each starts with the one that the evaluation before it left
behind. -/
def Handed (stash : Dict Json) : List Evaluation → Prop
  | [] => True
  | evaluation :: rest => evaluation.context.stash = stash ∧ Handed evaluation.after.stash rest

theorem handed_append {stash : Dict Json} {first second : List Evaluation} :
    Handed stash (first ++ second) ↔
      Handed stash first ∧ Handed (stashBehind stash first) second := by
  induction first generalizing stash with
  | nil => exact ⟨fun handed => ⟨trivial, handed⟩, And.right⟩
  | cons evaluation rest ih =>
    rw [List.cons_append, Handed, Handed, stashBehind, ih, and_assoc]

/-- Each evaluation starts with the stash that those in front of it have left. -/
theorem Handed.starts {stash : Dict Json} {front back : List Evaluation} {evaluation : Evaluation}
    (handed : Handed stash (front ++ evaluation :: back)) :
    evaluation.context.stash = stashBehind stash front :=
  (handed_append.mp handed).2.1

/-- The templates of a stage hand the stash on. -/
theorem StageCourse.Of.handed {course : StageCourse} {stage : Stage} {context : Context}
    (here : course.Of stage context) : Handed context.stash course.evaluations := by
  refine handed_append.mpr ⟨?_, ?_⟩
  · cases request : course.request with
    | none => trivial
    | some evaluation =>
      refine ⟨?_, trivial⟩
      rw [here.request_context evaluation request]
      rfl
  · cases response : course.response with
    | none => trivial
    | some evaluation =>
      refine ⟨?_, trivial⟩
      rw [here.response_context evaluation response]
      rfl

/-- The stages and the template behind them hand the stash on. -/
theorem Proceeds.handed {last : Option String} {context : Context} {stages : List Stage}
    {courses : List StageCourse} {stopped : Bool} {after : Option Evaluation} {ending : Ending}
    (proceeds : Proceeds last context stages courses stopped after ending) :
    Handed context.stash (courses.flatMap StageCourse.evaluations ++ after.toList) := by
  induction proceeds with
  | passed here passes rest ih =>
    rw [List.flatMap_cons, List.append_assoc]
    exact handed_append.mpr ⟨here.handed, ih⟩
  | failed recorded here fails => simpa using here.handed
  | cancelled here cancels => simpa using here.handed
  | stopped | completed => trivial
  | rendered recorded source genuine sees | broken recorded source genuine sees =>
    exact ⟨by rw [sees], trivial⟩

namespace Course

variable {course : Course} {plan : Plan} {context : Context} {ending : Ending}

/-- **The templates of a resolution hand the stash on.** -/
theorem Of.handed (here : course.Of plan context ending) :
    Handed context.stash course.evaluations := by
  cases here with
  | direct absent rest => exact rest.handed
  | begun source genuine sees gives onward rest =>
    exact ⟨by rw [sees], rest.handed⟩
  | returned recorded source genuine sees | broken recorded source genuine sees =>
    exact ⟨by rw [sees], trivial⟩

/-- What is picked from the moments of a course, if the looks have nothing of it. -/
theorem filterMap_moments {β : Type} (course : Course) {pick : Moment → Option β}
    (unlooked : ∀ cancelled, pick (.looked cancelled) = none) :
    course.moments.filterMap pick =
      (course.before.toList.map Moment.evaluated).filterMap pick ++
        course.stages.flatMap (fun stage => stage.steps.filterMap pick) ++
        (course.after.toList.map Moment.evaluated).filterMap pick := by
  have stages : (course.stages.flatMap StageCourse.moments).filterMap pick =
      course.stages.flatMap fun stage => stage.steps.filterMap pick := by
    rw [List.filterMap_flatMap]
    congr
    funext stage
    exact List.filterMap_cons_none (unlooked false)
  have stopped : (if course.stopped then [Moment.looked true] else []).filterMap pick = [] := by
    split
    · exact List.filterMap_cons_none (unlooked true)
    · rfl
  rw [moments, momentsBehind, List.filterMap_append, List.filterMap_append, List.filterMap_append,
    stages, stopped, List.nil_append]

/-- The evaluations among the moments of a course. -/
theorem evaluations_moments (course : Course) :
    course.moments.filterMap Moment.evaluation? = course.evaluations := by
  have single (evaluations : List Evaluation) :
      (evaluations.map Moment.evaluated).filterMap Moment.evaluation? = evaluations := by
    rw [List.filterMap_map]
    exact List.filterMap_some
  have steps (stage : StageCourse) :
      stage.steps.filterMap Moment.evaluation? = stage.evaluations := by
    rw [StageCourse.steps, List.filterMap_append, List.filterMap_append, single, single]
    cases stage.call <;> simp [StageCourse.evaluations, Moment.evaluation?]
  rw [filterMap_moments course fun _ => rfl, single, single]
  simp only [steps]
  rfl

/-- What a course has of a plan: its templates and data sources are those of the plan, and the
stages that were reached are the first ones, of which all but the last had an output. -/
structure Follows (course : Course) (plan : Plan) : Prop where
  before_source : course.before.map Evaluation.source = plan.before?
  after_source : ∀ after ∈ course.after, plan.after? = some after.source
  stages_prefix : course.stages.map StageCourse.stage <+: plan.stages
  passed : ∀ front stage back, course.stages = front ++ stage :: back →
    ∀ passed ∈ front, ∃ value, passed.passage = .output value
  request_source : ∀ stage ∈ course.stages,
    stage.request.map Evaluation.source = stage.stage.request
  response_source : ∀ stage ∈ course.stages, ∀ response ∈ stage.response,
    stage.stage.response = some response.source
  call_source : ∀ stage ∈ course.stages, ∀ sent ∈ stage.call,
    sent.1.source = stage.stage.dataSource

/-- What there was in front of the stages: the value of the template there, or `null`. -/
def start (course : Course) : Json :=
  (course.before.bind fun before => before.outcome.value?).getD .null

/-- A template in front of the stages that has a value. -/
theorem start_of_value {before : Evaluation} {value : Json} (first : course.before = some before)
    (gives : before.outcome.value? = some value) : course.start = value := by
  rw [start, first, Option.bind_some, gives]
  rfl

/-- The template in front of the stages is evaluated in the context in which the resolution
starts. -/
theorem Of.before_context (here : course.Of plan context ending) :
    ∀ before ∈ course.before, before.context = context := by
  cases here with
  | direct absent => exact fun _ member => nomatch member
  | begun source genuine sees | returned _ source genuine sees | broken _ source genuine sees =>
    rintro _ ⟨⟩
    exact sees

/-- **Each stage of a course is in the context that those in front of it have left**, and so is the
template behind them. -/
theorem Of.context_eq (here : course.Of plan context ending)
    (begins : context = context.between .null context.stash) :
    (∀ front stage back, course.stages = front ++ stage :: back →
      stage.Of stage.stage (context.between (outputBehind course.start front)
        (stashBehind context.stash
          (course.before.toList ++ front.flatMap StageCourse.evaluations)))) ∧
      ∀ after ∈ course.after, after.Genuine ∧ some after.source = plan.after? ∧
        after.context = context.between (outputBehind course.start course.stages)
          (stashBehind context.stash
            (course.before.toList ++ course.stages.flatMap StageCourse.evaluations)) := by
  cases here with
  | direct absent rest =>
    rw [begins] at rest
    exact rest.context_eq
  | @begun before value stages stopped after ending source genuine sees gives onward rest =>
    rw [genuine.completeStage_after sees] at rest
    rw [start_of_value rfl gives]
    exact rest.context_eq
  | returned recorded source genuine sees returns | broken recorded source genuine sees fails =>
    exact ⟨fun front stage back split => by simp at split, fun _ member => nomatch member⟩

/-- **A course follows its plan.** -/
theorem Of.follows (here : course.Of plan context ending)
    (begins : context = context.between .null context.stash) : course.Follows plan := by
  obtain ⟨stages, last⟩ := here.context_eq begins
  have each : ∀ stage ∈ course.stages, ∃ context, stage.Of stage.stage context := by
    intro stage member
    obtain ⟨front, back, split⟩ := List.mem_iff_append.mp member
    exact ⟨_, stages front stage back split⟩
  have first : course.before.map Evaluation.source = plan.before? := by
    cases here with
    | direct absent => exact absent.symm
    | begun source | returned _ source | broken _ source => exact source.symm
  have order : course.stages.map StageCourse.stage <+: plan.stages ∧
      ∀ front stage back, course.stages = front ++ stage :: back →
        ∀ passed ∈ front, ∃ value, passed.passage = .output value := by
    cases here with
    | direct absent rest | begun source genuine sees gives onward rest => exact rest.reached
    | returned | broken =>
      exact ⟨List.nil_prefix, fun front stage back split => by simp at split⟩
  exact {
    before_source := first
    after_source := fun after member => (last after member).2.1.symm
    stages_prefix := order.1
    passed := order.2
    request_source := fun stage member => by
      obtain ⟨_, here⟩ := each stage member
      exact here.request_source
    response_source := fun stage member response answered => by
      obtain ⟨_, here⟩ := each stage member
      have source := here.response_source
      rw [Option.mem_def.mp answered] at source
      split at source
      · exact source.symm
      · cases source
    call_source := fun stage member sent called => by
      obtain ⟨_, here⟩ := each stage member
      obtain ⟨payload, same, _⟩ := here.call_eq sent called
      rw [same]
      rfl }

end Course

end FieldResolver

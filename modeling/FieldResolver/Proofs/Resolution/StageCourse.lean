/-
**Courses of stages.**

A course sorts what happens in a stage: the evaluation of its request template, its call and the
evaluation of its response template, as far as there are any.

* `StageCourse.passage`: what a stage comes to, by its course;
* `StageCourse.Of`: which courses a stage may take in a context;
* `Stage.run_traces`: every trace of a stage begins with such a course.
-/

import FieldResolver.Proofs.Resolution.Traces

namespace FieldResolver

open Program

namespace Template.Outcome

/-- The value that a template wrote or returned. -/
def value? : Outcome → Option Json
  | .rendered result => some result.value
  | _ => none

/-- The value that a template returned. -/
def returned? : Outcome → Option Json
  | .rendered result => if result.returned then some result.value else none
  | _ => none

/-- The error of a template that gave no value. -/
def error? : Outcome → Option StageError
  | .rendered _ => none
  | .raised error => some (.raised error)
  | .failed failure => some (.template failure)

/-- Whether a text was evaluated that is no template. -/
def isMalformed : Outcome → Bool
  | .failed (.malformed _ _) => true
  | _ => false

theorem error?_of_value? {outcome : Outcome} {value : Json}
    (gives : outcome.value? = some value) : outcome.error? = none := by
  cases outcome with
  | rendered => rfl
  | raised | failed => cases gives

theorem value?_of_error? {outcome : Outcome} {cause : StageError}
    (fails : outcome.error? = some cause) : outcome.value? = none := by
  cases outcome with
  | rendered => cases fails
  | raised | failed => rfl

theorem returned?_of_error? {outcome : Outcome} {cause : StageError}
    (fails : outcome.error? = some cause) : outcome.returned? = none := by
  cases outcome with
  | rendered => cases fails
  | raised | failed => rfl

theorem isMalformed_of_value? {outcome : Outcome} {value : Json}
    (gives : outcome.value? = some value) : outcome.isMalformed = false := by
  cases outcome with
  | rendered => rfl
  | raised | failed => cases gives

end Template.Outcome

/-! ### Stages -/

/-- What a stage comes to. -/
inductive Passage where
  | output (value : Json)
  | failure (cause : StageError)
  | cancelled

/-- What a stage comes to by its response template. -/
def Template.Outcome.passage : Outcome → Passage
  | .rendered result => .output result.value
  | .raised error => .failure (.raised error)
  | .failed failure => .failure (.template failure)

theorem Template.Outcome.error?_of_passage {outcome : Outcome} {cause : StageError}
    (fails : outcome.passage = .failure cause) : outcome.error? = some cause := by
  cases outcome <;> cases fails <;> rfl

/-- The call of a stage for a field. -/
def Stage.callWith (stage : Stage) (info : FieldInfo) (payload : Json) : Call where
  source := stage.dataSource
  field := some s!"{info.parentType}.{info.field}"
  request := payload

/-- What happened in a stage. -/
structure StageCourse where
  stage : Stage
  /-- The evaluation of the request template. -/
  request : Option Evaluation := none
  /-- The call of the data source with its reply. -/
  call : Option (Call × Reply) := none
  /-- The evaluation of the response template. -/
  response : Option Evaluation := none

namespace StageCourse

/-- The value that the data source answered, or `null` if there is none. -/
def result (course : StageCourse) : Json :=
  match course.call with
  | some (_, .value value) => value
  | _ => .null

/-- The error of the request template or of the call. -/
def trouble (course : StageCourse) : Option StageError :=
  match course.request.bind fun request => request.outcome.error?, course.call with
  | some cause, _ => some cause
  | none, some (_, .failure failure) => some (.call failure)
  | none, _ => none

/-- The value that the request template returned. -/
def returned? (course : StageCourse) : Option Json :=
  course.request.bind fun request => request.outcome.returned?

/-- Whether a request is sent: there is no template for it, or it wrote one. -/
def sends (course : StageCourse) : Bool :=
  course.request.all fun request =>
    request.outcome.value?.isSome && request.outcome.returned?.isNone

/-- Whether the stage got as far as its response: the request template returned no value and is a
template, and the call was not cancelled. -/
def answers (course : StageCourse) : Bool :=
  (course.request.all fun request =>
    request.outcome.returned?.isNone && !request.outcome.isMalformed) &&
  match course.call with
  | some (_, .cancelled) => false
  | _ => true

/-- What the stage came to: what its request template returned, or else what its response template
came to, or else its trouble or the value of the call. -/
def passage (course : StageCourse) : Passage :=
  match course.returned?, course.response with
  | some value, _ => .output value
  | none, some response => response.outcome.passage
  | none, none =>
    match course.trouble, course.call with
    | some cause, _ => .failure cause
    | none, some (_, .value value) => .output value
    | none, _ => .cancelled

/-- A course that goes on with a response. -/
def responding (course : StageCourse) (response : Option Evaluation) : StageCourse :=
  { course with response }

/-- The evaluations of the stage in order. -/
def evaluations (course : StageCourse) : List Evaluation :=
  course.request.toList ++ course.response.toList

/-- What happened once the stage had begun, in order. -/
def steps (course : StageCourse) : List Moment :=
  course.request.toList.map .evaluated ++
    course.call.toList.map (fun sent => .called sent.1 sent.2) ++
    course.response.toList.map .evaluated

/-- What happened in the stage, which begins with a look at whether it was cancelled. -/
def moments (course : StageCourse) : List Moment := .looked false :: course.steps

end StageCourse

/-- The stash that evaluations leave behind, which begin with a stash. -/
def stashBehind (stash : Dict Json) : List Evaluation → Dict Json
  | [] => stash
  | evaluation :: rest => stashBehind evaluation.after.stash rest

theorem stashBehind_append (stash : Dict Json) (first second : List Evaluation) :
    stashBehind stash (first ++ second) = stashBehind (stashBehind stash first) second := by
  induction first generalizing stash with
  | nil => rfl
  | cons evaluation rest ih => exact ih evaluation.after.stash

namespace StageCourse

/-- The context that a stage leaves behind with its output. -/
def leaves (course : StageCourse) (context : Context) (output : Json) : Context :=
  { context with stash := stashBehind context.stash course.evaluations }.completeStage output

/-- The context that the response template of a stage sees: what was answered and what went
wrong. -/
def seen (course : StageCourse) (context : Context) : Context :=
  { context with
    stash := stashBehind context.stash course.request.toList
    result := course.result
    error := course.trouble.map StageError.contextError }

/-- How a stage makes its request and calls its data source in a context. -/
structure Asks (course : StageCourse) (stage : Stage) (context : Context) : Prop where
  stage_eq : course.stage = stage
  request_source : course.request.map Evaluation.source = stage.request
  request_genuine : ∀ request ∈ course.request, request.Genuine
  request_context : ∀ request ∈ course.request, request.context = context.beginStage
  sends_iff : course.call.isSome = course.sends
  /-- What is sent is what the request template wrote, or what there is without one. -/
  call_eq : ∀ sent ∈ course.call, ∃ payload, sent.1 = stage.callWith context.info payload ∧
    match course.request with
    | none => payload = Stage.passThrough context.beginStage
    | some request => request.outcome.value? = some payload

/-- What a stage does in a context. -/
structure Of (course : StageCourse) (stage : Stage) (context : Context) : Prop
    extends course.Asks stage context where
  response_source : course.response.map Evaluation.source =
    if course.answers then stage.response else none
  response_genuine : ∀ response ∈ course.response, response.Genuine
  response_context : ∀ response ∈ course.response, response.context = course.seen context

end StageCourse

section

variable {stage : Stage} {context : Context} {progress : Progress}
  {next : Progress → Program Ending} {moments : List Moment} {ending : Ending}

/-- How a trace goes on behind a stage. -/
def StageCourse.GoesOn (course : StageCourse) (context : Context)
    (next : Progress → Program Ending) (moments : List Moment) (ending : Ending) : Prop :=
  match course.passage with
  | .output value => ∃ rest after,
    moments = course.steps ++ rest ∧ after.context = course.leaves context value ∧
      (next after).Traces rest ending
  | .failure cause =>
    moments = course.steps ∧
      ∃ recorded, ending = .aborted course.result recorded (.aborted course.stage.name cause)
  | .cancelled => moments = course.steps ∧ ending = .cancelled

/-- A course that has got as far as its response. -/
structure StageCourse.Open (course : StageCourse) (stage : Stage) (context : Context)
    (progress : Progress) : Prop where
  stage_eq : course.stage = stage
  unanswered : course.response = none
  unreturned : course.returned? = none
  answers : course.answers = true
  /-- Without trouble there is a value. -/
  answered : course.trouble = none → ∃ call value, course.call = some (call, .value value)
  context_eq : progress.context =
    { context with
      stash := stashBehind context.stash course.request.toList
      result := course.result
      error := none }

namespace StageCourse

variable {course : StageCourse}

theorem passage_trouble (unreturned : course.returned? = none) {cause : StageError}
    (trouble : course.trouble = some cause) :
    (course.responding none).passage = .failure cause := by
  have unreturned : (course.responding none).returned? = none := unreturned
  have trouble : (course.responding none).trouble = some cause := trouble
  unfold passage
  rw [unreturned, trouble]
  rfl

theorem passage_value (unreturned : course.returned? = none) (trouble : course.trouble = none)
    {call : Call} {value : Json} (called : course.call = some (call, .value value)) :
    (course.responding none).passage = .output value := by
  have unreturned : (course.responding none).returned? = none := unreturned
  have trouble : (course.responding none).trouble = none := trouble
  have called : (course.responding none).call = some (call, .value value) := called
  unfold passage
  rw [unreturned, trouble, called]
  rfl

theorem passage_response (unreturned : course.returned? = none) (response : Evaluation) :
    (course.responding (some response)).passage = response.outcome.passage := by
  have unreturned : (course.responding (some response)).returned? = none := unreturned
  unfold passage
  rw [unreturned]
  rfl

/-- What a stage fails by: its response template, or without one its trouble. -/
theorem passage_failure {cause : StageError} (fails : course.passage = .failure cause) :
    (∃ response ∈ course.response, response.outcome.error? = some cause) ∨
      course.response = none ∧ course.trouble = some cause := by
  unfold passage at fails
  split at fails
  · cases fails
  · rename_i response _ answered
    exact .inl ⟨response, answered, Template.Outcome.error?_of_passage fails⟩
  · rename_i silent
    refine .inr ⟨silent, ?_⟩
    split at fails
    · rename_i troubled
      cases fails
      exact troubled
    · cases fails
    · cases fails

/-- What the trouble of a stage is: the error of its request template, or of its call. -/
theorem trouble_eq_some {cause : StageError} (troubled : course.trouble = some cause) :
    (∃ request ∈ course.request, request.outcome.error? = some cause) ∨
      ∃ call failure, course.call = some (call, .failure failure) ∧ cause = .call failure := by
  unfold trouble at troubled
  split at troubled
  · rename_i failed
    cases troubled
    exact .inl (Option.bind_eq_some_iff.mp failed)
  · rename_i call failure _ called
    cases troubled
    exact .inr ⟨call, failure, called, rfl⟩
  · cases troubled

end StageCourse

/-- The steps of a course that goes on with a response. -/
theorem StageCourse.steps_responding {course : StageCourse} (unanswered : course.response = none)
    (response : Option Evaluation) :
    (course.responding response).steps = course.steps ++ response.toList.map .evaluated := by
  rw [steps, steps, unanswered]
  simp [responding]

/-- The response template of a stage in a trace. -/
theorem Stage.answer_traces {course : StageCourse} (start : course.Open stage context progress)
    {source : String} {after : Progress} (sees : after.context = course.seen context)
    (trace : (Program.evaluate source after.context fun
      | .rendered rendered, context =>
        next ((after.after context rendered).completeStage rendered.value)
      | .raised error, context =>
        .done ((after.withContext context).abort stage.name (.raised error))
      | .failed failure, context =>
        .done ((after.withContext context).abort stage.name (.template failure))).Traces
          moments ending) :
    ∃ response : Evaluation, response.source = source ∧ response.Genuine ∧
      response.context = course.seen context ∧
      (course.responding (some response)).GoesOn context next (course.steps ++ moments) ending := by
  obtain ⟨response, moments, same, genuine, seen, rfl, rest⟩ := traces_evaluate trace
  have behind := genuine.after_eq
  rw [seen, sees] at behind
  refine ⟨response, same, genuine, seen.trans sees, ?_⟩
  unfold StageCourse.GoesOn
  rw [StageCourse.steps_responding start.unanswered,
    StageCourse.passage_response start.unreturned]
  cases outcome : response.outcome with
  | rendered rendered =>
    rw [outcome] at rest
    refine ⟨_, _, by simp, ?_, rest⟩
    rw [Progress.completeStage, Progress.after, behind, StageCourse.leaves]
    simp only [StageCourse.evaluations, StageCourse.responding, StageCourse.seen,
      Option.toList_some, stashBehind_append]
    rfl
  | raised error =>
    rw [outcome] at rest
    cases rest
    rw [Progress.abort, Progress.withContext, behind, ← start.stage_eq]
    exact ⟨by simp, after.recorded, rfl⟩
  | failed failure =>
    rw [outcome] at rest
    cases rest
    rw [Progress.abort, Progress.withContext, behind, ← start.stage_eq]
    exact ⟨by simp, after.recorded, rfl⟩

/-- The response of a stage in a trace. -/
theorem Stage.respond_traces {course : StageCourse} (start : course.Open stage context progress)
    (trace : (stage.respond progress course.trouble next).Traces moments ending) :
    ∃ response : Option Evaluation, response.map Evaluation.source = stage.response ∧
      (∀ evaluation ∈ response, evaluation.Genuine ∧ evaluation.context = course.seen context) ∧
      (course.responding response).GoesOn context next (course.steps ++ moments) ending := by
  unfold Stage.respond at trace
  cases responds : stage.response with
  | none =>
    refine ⟨none, rfl, fun _ member => (nomatch member), ?_⟩
    unfold StageCourse.GoesOn
    rw [StageCourse.steps_responding start.unanswered]
    cases trouble : course.trouble with
    | some cause =>
      rw [responds, trouble] at trace
      cases trace
      rw [StageCourse.passage_trouble start.unreturned trouble]
      refine ⟨by simp, progress.recorded, ?_⟩
      show Ending.aborted progress.context.result progress.recorded _ = _
      rw [start.context_eq, ← start.stage_eq]
      rfl
    | none =>
      rw [responds, trouble] at trace
      obtain ⟨call, value, called⟩ := start.answered trouble
      have same : course.result = value := by rw [StageCourse.result, called]
      rw [StageCourse.passage_value start.unreturned trouble called]
      refine ⟨moments, _, by simp, ?_, trace⟩
      rw [Progress.completeStage, start.context_eq, same, StageCourse.leaves]
      simp only [StageCourse.evaluations, StageCourse.responding, Option.toList_none,
        List.append_nil]
      rfl
  | some source =>
    cases trouble : course.trouble with
    | some cause =>
      have sees : (progress.withContext (progress.context.setError cause.contextError)).context =
          course.seen context := by
        rw [StageCourse.seen, trouble, start.context_eq]
        rfl
      rw [responds, trouble] at trace
      obtain ⟨response, rfl, genuine, seen, goes⟩ := answer_traces start sees trace
      exact ⟨some response, rfl, fun _ member => Option.mem_some.mp member ▸ ⟨genuine, seen⟩, goes⟩
    | none =>
      have sees : progress.context = course.seen context := by
        rw [StageCourse.seen, trouble, start.context_eq]
        rfl
      rw [responds, trouble] at trace
      obtain ⟨response, rfl, genuine, seen, goes⟩ := answer_traces start sees trace
      exact ⟨some response, rfl, fun _ member => Option.mem_some.mp member ▸ ⟨genuine, seen⟩, goes⟩

/-- A course that has got as far as its response goes on with it. -/
theorem Stage.respond_course {course : StageCourse} {called : Called}
    (asks : course.Asks stage context) (start : course.Open stage context progress)
    (trouble : course.trouble = called)
    (trace : (stage.respond progress called next).Traces moments ending) :
    ∃ full : StageCourse, full.Of stage context ∧
      full.GoesOn context next (course.steps ++ moments) ending := by
  subst trouble
  obtain ⟨response, source, sees, goes⟩ := respond_traces start trace
  have answers : (course.responding response).answers = true := start.answers
  refine ⟨course.responding response, ⟨⟨asks.stage_eq, asks.request_source, asks.request_genuine,
    asks.request_context, asks.sends_iff, asks.call_eq⟩, ?_, ?_, ?_⟩, goes⟩
  · rw [answers]
    exact source
  · exact fun evaluation member => (sees evaluation member).1
  · exact fun evaluation member => (sees evaluation member).2

/-- A course that did not get as far as its response is complete without one. -/
theorem StageCourse.Of.unanswering {course : StageCourse} (asks : course.Asks stage context)
    (unanswered : course.answers = false) (silent : course.response = none) :
    course.Of stage context where
  toAsks := asks
  response_source := by rw [unanswered, silent]; rfl
  response_genuine _ member := nomatch silent.symm.trans (Option.mem_def.mp member)
  response_context _ member := nomatch silent.symm.trans (Option.mem_def.mp member)

/-- How a stage came by the payload of its request: its request template wrote it, or there is
none. -/
structure Stage.Wrote (stage : Stage) (context : Context) (request : Option Evaluation)
    (payload : Json) : Prop where
  source : request.map Evaluation.source = stage.request
  genuine : ∀ evaluation ∈ request, evaluation.Genuine
  sees : ∀ evaluation ∈ request, evaluation.context = context.beginStage
  value : ∀ evaluation ∈ request, evaluation.outcome.value? = some payload
  unreturned : ∀ evaluation ∈ request, evaluation.outcome.returned? = none
  without : request = none → payload = passThrough context.beginStage

/-- The course of a stage up to the reply to its request. -/
def Stage.replied (stage : Stage) (context : Context) (request : Option Evaluation)
    (payload : Json) (reply : Reply) : StageCourse where
  stage := stage
  request := request
  call := some (stage.callWith context.info payload, reply)

section

variable {request : Option Evaluation} {payload : Json}

namespace Stage.Wrote

theorem returned?_eq (wrote : stage.Wrote context request payload) (reply : Reply) :
    (stage.replied context request payload reply).returned? = none := by
  cases request with
  | none => rfl
  | some evaluation => exact wrote.unreturned evaluation rfl

/-- Only the call can have gone wrong. -/
theorem trouble_eq (wrote : stage.Wrote context request payload) (reply : Reply) :
    (stage.replied context request payload reply).trouble =
      match reply with
      | .failure failure => some (.call failure)
      | _ => none := by
  have untroubled : (request.bind fun evaluation => evaluation.outcome.error?) = none := by
    cases request with
    | none => rfl
    | some evaluation => exact Template.Outcome.error?_of_value? (wrote.value evaluation rfl)
  simp only [StageCourse.trouble, Stage.replied, untroubled]
  cases reply <;> rfl

/-- The stage gets as far as its response unless the call was cancelled. -/
theorem answers_eq (wrote : stage.Wrote context request payload) (reply : Reply) :
    (stage.replied context request payload reply).answers =
      match reply with
      | .cancelled => false
      | _ => true := by
  have proper : (request.all fun evaluation =>
      evaluation.outcome.returned?.isNone && !evaluation.outcome.isMalformed) = true := by
    cases request with
    | none => rfl
    | some evaluation =>
      have fine := Template.Outcome.isMalformed_of_value? (wrote.value evaluation rfl)
      simp [wrote.unreturned evaluation rfl, fine]
  simp only [StageCourse.answers, Stage.replied, proper, Bool.true_and]
  cases reply <;> rfl

theorem asks (wrote : stage.Wrote context request payload) (reply : Reply) :
    (stage.replied context request payload reply).Asks stage context where
  stage_eq := rfl
  request_source := wrote.source
  request_genuine := wrote.genuine
  request_context := wrote.sees
  sends_iff := by
    cases request with
    | none => rfl
    | some evaluation =>
      simp [Stage.replied, StageCourse.sends, wrote.value evaluation rfl,
        wrote.unreturned evaluation rfl]
  call_eq := by
    rintro _ ⟨⟩
    refine ⟨payload, rfl, ?_⟩
    cases request with
    | none => exact wrote.without rfl
    | some evaluation => exact wrote.value evaluation rfl

/-- A stage whose call was not cancelled has got as far as its response. -/
theorem opens (wrote : stage.Wrote context request payload) {reply : Reply}
    (served : reply ≠ .cancelled)
    (begun : progress.context =
      { context.beginStage with stash := stashBehind context.stash request.toList }) :
    (stage.replied context request payload reply).Open stage context
      (progress.withContext { progress.context with
        result := (stage.replied context request payload reply).result }) where
  stage_eq := rfl
  unanswered := rfl
  unreturned := wrote.returned?_eq reply
  answers := by
    rw [wrote.answers_eq]
    cases reply with
    | value | failure => rfl
    | cancelled => exact absurd rfl served
  answered := by
    rw [wrote.trouble_eq]
    cases reply with
    | value value => exact fun _ => ⟨_, value, rfl⟩
    | failure failure => exact nofun
    | cancelled => exact absurd rfl served
  context_eq := by
    rw [Progress.withContext, begun]
    rfl

end Stage.Wrote

/-- The call of a stage in a trace, of which the request was made by a template or without one. -/
theorem Stage.send_traces (wrote : stage.Wrote context request payload)
    (begun : progress.context =
      { context.beginStage with stash := stashBehind context.stash request.toList })
    (trace : (stage.send progress payload next).Traces moments ending) :
    ∃ full : StageCourse, full.Of stage context ∧
      full.GoesOn context next (request.toList.map .evaluated ++ moments) ending := by
  have info : progress.context.info = context.info := by rw [begun]; rfl
  unfold Stage.send at trace
  rw [info] at trace
  obtain _ | _ | ⟨reply, rest⟩ := trace
  rename_i moments
  have steps : (stage.replied context request payload reply).steps ++ moments =
      request.toList.map .evaluated ++
        .called (stage.callWith context.info payload) reply :: moments := by
    simp [StageCourse.steps, Stage.replied]
  show ∃ full : StageCourse, full.Of stage context ∧ full.GoesOn context next
    (request.toList.map .evaluated ++
      .called (stage.callWith context.info payload) reply :: moments)
    ending
  rw [← steps]
  have asks := wrote.asks reply
  cases reply with
  | value value => exact respond_course asks (wrote.opens nofun begun) (wrote.trouble_eq _) rest
  | failure failure =>
    exact respond_course asks (wrote.opens nofun begun) (wrote.trouble_eq _) rest
  | cancelled =>
    cases rest
    have passage : (stage.replied context request payload .cancelled).passage = .cancelled := by
      unfold StageCourse.passage
      rw [wrote.returned?_eq, wrote.trouble_eq]
      rfl
    refine ⟨_, .unanswering asks (wrote.answers_eq _) rfl, ?_⟩
    unfold StageCourse.GoesOn
    rw [passage]
    exact ⟨by simp, rfl⟩

end

section

variable {request : Evaluation}

/-- A request that a template made without a call. -/
theorem StageCourse.asks_once (source : stage.request = some request.source)
    (genuine : request.Genuine) (sees : request.context = context.beginStage)
    (unsent : StageCourse.sends { stage, request := some request } = false) :
    StageCourse.Asks { stage, request := some request } stage context where
  stage_eq := rfl
  request_source := source.symm
  request_genuine _ member := Option.mem_some.mp member ▸ genuine
  request_context _ member := Option.mem_some.mp member ▸ sees
  sends_iff := unsent.symm
  call_eq _ member := nomatch member

/-- A stage in a trace of which the request template returned a value. -/
theorem Stage.returned_traces {rendered : Template.Rendered}
    (source : stage.request = some request.source) (genuine : request.Genuine)
    (sees : request.context = context.beginStage)
    (outcome : request.outcome = .rendered rendered) (returned : rendered.returned = true)
    (left : progress.context = request.after)
    (trace : (next (progress.completeStage rendered.value)).Traces moments ending) :
    ∃ full : StageCourse, full.Of stage context ∧
      full.GoesOn context next (.evaluated request :: moments) ending := by
  let course : StageCourse := { stage, request := some request }
  have unsent : course.sends = false := by
    simp [course, StageCourse.sends, outcome, Template.Outcome.returned?, returned]
  have unanswered : course.answers = false := by
    simp [course, StageCourse.answers, outcome, Template.Outcome.returned?, returned]
  have passage : course.passage = .output rendered.value := by
    have returned : course.returned? = some rendered.value := by
      simp [course, StageCourse.returned?, outcome, Template.Outcome.returned?, returned]
    rw [StageCourse.passage, returned]
  have asks := StageCourse.asks_once source genuine sees unsent
  refine ⟨course, .unanswering asks unanswered rfl, ?_⟩
  unfold StageCourse.GoesOn
  rw [passage]
  refine ⟨moments, _, rfl, ?_, trace⟩
  rw [Progress.completeStage, left, genuine.after_eq, sees]
  rfl

/-- A stage in a trace of which the request template failed: it is left to the response. -/
theorem Stage.failed_traces {cause : StageError}
    (source : stage.request = some request.source) (genuine : request.Genuine)
    (sees : request.context = context.beginStage)
    (failed : request.outcome.error? = some cause) (proper : request.outcome.isMalformed = false)
    (left : progress.context = request.after)
    (trace : (stage.respond progress (some cause) next).Traces moments ending) :
    ∃ full : StageCourse, full.Of stage context ∧
      full.GoesOn context next (.evaluated request :: moments) ending := by
  let course : StageCourse := { stage, request := some request }
  have unwritten := Template.Outcome.value?_of_error? failed
  have unreturned := Template.Outcome.returned?_of_error? failed
  have unsent : course.sends = false := by simp [course, StageCourse.sends, unwritten]
  have trouble : course.trouble = some cause := by simp [course, StageCourse.trouble, failed]
  have start : course.Open stage context progress :=
    ⟨rfl, rfl, unreturned, by simp [course, StageCourse.answers, unreturned, proper],
      fun fine => (nomatch trouble.symm.trans fine), by
        rw [left, genuine.after_eq, sees]
        rfl⟩
  exact respond_course (StageCourse.asks_once source genuine sees unsent) start trouble trace

/-- A stage in a trace of which the text for the request is no template. -/
theorem Stage.malformed_course {position : Template.Position} {message : String}
    (source : stage.request = some request.source) (genuine : request.Genuine)
    (sees : request.context = context.beginStage)
    (outcome : request.outcome = .failed (.malformed position message))
    (left : progress.context = request.after) :
    ∃ full : StageCourse, full.Of stage context ∧
      full.GoesOn context next [.evaluated request]
        (progress.abort stage.name (.template (.malformed position message))) := by
  let course : StageCourse := { stage, request := some request }
  have unsent : course.sends = false := by
    simp [course, StageCourse.sends, outcome, Template.Outcome.value?]
  have unanswered : course.answers = false := by
    simp [course, StageCourse.answers, outcome, Template.Outcome.isMalformed]
  have passage : course.passage = .failure (.template (.malformed position message)) := by
    simp [course, StageCourse.passage, StageCourse.returned?, StageCourse.trouble, outcome,
      Template.Outcome.returned?, Template.Outcome.error?]
  have asks := StageCourse.asks_once source genuine sees unsent
  refine ⟨course, .unanswering asks unanswered rfl, ?_⟩
  unfold StageCourse.GoesOn
  rw [passage, Progress.abort, left, genuine.after_eq, sees]
  exact ⟨rfl, progress.recorded, rfl⟩

end

/-- **A trace of a stage** begins with a course of the stage. -/
theorem Stage.run_traces (trace : (stage.run progress next).Traces moments ending) :
    ∃ course : StageCourse, course.Of stage progress.context ∧
      course.GoesOn progress.context next moments ending := by
  unfold Stage.run at trace
  cases asked : stage.request with
  | none =>
    rw [asked] at trace
    have begun : progress.context.beginStage =
        { progress.context.beginStage with stash := stashBehind progress.context.stash [] } := rfl
    have wrote : stage.Wrote progress.context none (passThrough progress.context.beginStage) := by
      refine ⟨asked.symm, ?_, ?_, ?_, ?_, fun _ => rfl⟩ <;> rintro _ ⟨⟩
    exact send_traces wrote begun trace
  | some text =>
    rw [asked] at trace
    obtain ⟨request, moments, rfl, genuine, sees, rfl, rest⟩ := traces_evaluate trace
    cases outcome : request.outcome with
    | rendered rendered =>
      rw [outcome] at rest
      cases returned : rendered.returned with
      | false =>
        simp only [returned] at rest
        have wrote : stage.Wrote progress.context (some request) rendered.value := by
          refine ⟨asked.symm, ?_, ?_, ?_, ?_, nofun⟩ <;> rintro _ ⟨⟩
          · exact genuine
          · exact sees
          · rw [outcome]
            rfl
          · simp [outcome, Template.Outcome.returned?, returned]
        have begun : request.after =
            { progress.context.beginStage with stash := request.after.stash } := by
          rw [genuine.after_eq, sees]
          rfl
        exact send_traces wrote begun rest
      | true =>
        simp only [returned, if_true] at rest
        exact returned_traces asked genuine sees outcome returned rfl rest
    | raised error =>
      rw [outcome] at rest
      exact failed_traces asked genuine sees (by rw [outcome]; rfl) (by rw [outcome]; rfl) rfl rest
    | failed failure =>
      rw [outcome] at rest
      cases failure with
      | malformed position message =>
        cases rest
        exact malformed_course asked genuine sees outcome rfl
      | runtime message =>
        exact failed_traces asked genuine sees (by rw [outcome]; rfl) (by rw [outcome]; rfl) rfl
          rest

end

end FieldResolver

/-
**What templates see of a resolution.**

Templates see the context of the resolution. What they find there under `error`, `result`, `prev`
and `stash` depends on where in the resolution they stand, and on nothing else.

* `Evaluation.sees`: what the template of an evaluation finds under a name;
* `Resolver.templates_see`: the error, the result, the output before and the stash, for every
  template of every trace.
-/

import FieldResolver.Proofs.Resolution.Courses
import FieldResolver.Proofs.Template.Start

namespace FieldResolver

open Program

/-- What the template of an evaluation finds under a name of the context. -/
def Evaluation.sees (evaluation : Evaluation) (name : String) : Option Json :=
  evaluation.context.templateJson.field? name

namespace StageCourse

/-- There is trouble in a stage exactly if its request template gave no value or its call failed. -/
theorem trouble_isSome (course : StageCourse) :
    course.trouble.isSome ↔
      (∃ request ∈ course.request, request.outcome.value? = none) ∨
        ∃ call failure, course.call = some (call, .failure failure) := by
  have asked : (course.request.bind fun request => request.outcome.error?).isSome ↔
      ∃ request ∈ course.request, request.outcome.value? = none := by
    cases course.request with
    | none => simp
    | some request => cases outcome : request.outcome <;>
        simp [outcome, Template.Outcome.error?, Template.Outcome.value?]
  rw [← asked, trouble]
  cases course.request.bind fun request => request.outcome.error? with
  | some cause => simp
  | none =>
    cases course.call with
    | none => simp
    | some sent =>
      obtain ⟨call, reply⟩ := sent
      cases reply <;> simp

end StageCourse

/-- **What the templates of a resolution see.** The error is there for a response template only, and
exactly if the request template of its own stage gave no value or the call of its own stage failed;
it is the message and the kind of that failure. The result is `null` for a request template and what
the stage was answered for a response template. What there was before is the output of the stage in
front, for the first one the value of the template in front of the stages. And the stash is the one
that the evaluation before has left behind, whatever its outcome. -/
theorem Resolver.templates_see {resolver : Resolver} {request : FieldRequest}
    {moments : List Moment} {result : Option FieldResult}
    (trace : (resolver.program request).Traces moments result) :
    ∃ course : Course, course.moments = moments ∧ course.Follows resolver.plan ∧
      (∀ before ∈ course.before, before.sees "error" = none) ∧
      (∀ front stage back, course.stages = front ++ stage :: back →
        (∀ template ∈ stage.evaluations,
          template.sees "prev" = some (.object [("result", outputBehind course.start front)])) ∧
        (∀ request ∈ stage.request,
          request.sees "error" = none ∧ request.sees "result" = some .null) ∧
        ∀ response ∈ stage.response,
          response.sees "error" =
            stage.trouble.map (fun cause => Context.errorJson cause.contextError) ∧
          ((response.sees "error").isSome ↔
            (∃ request ∈ stage.request, request.outcome.value? = none) ∨
              ∃ call failure, stage.call = some (call, .failure failure)) ∧
          response.sees "result" = some stage.result) ∧
      (∀ after ∈ course.after, after.sees "error" = none ∧
        after.sees "prev" =
          some (.object [("result", outputBehind course.start course.stages)])) ∧
      ∀ front template back,
        moments.filterMap Moment.evaluation? = front ++ template :: back →
          template.Genuine ∧ template.sees "stash" = some (.object (stashBehind [] front)) := by
  obtain ⟨ending, below, _⟩ := traces_map trace
  obtain ⟨course, here, rfl⟩ := resolution_traces below
  generalize start : Context.ofRequest (resolver.named request) = context at here
  have begins : context = context.between .null context.stash := by subst start; rfl
  have empty : context.stash = [] := by subst start; rfl
  obtain ⟨stages, last⟩ := here.context_eq begins
  refine ⟨course, rfl, here.follows begins, ?_, ?_, ?_, ?_⟩
  · intro before member
    rw [Evaluation.sees, here.before_context before member, Context.templateJson_error, begins]
    rfl
  · intro front stage back split
    have here := stages front stage back split
    refine ⟨?_, ?_, ?_⟩
    · intro template member
      rw [Evaluation.sees, Context.templateJson_previous]
      obtain asked | answered := List.mem_append.mp member
      · rw [here.request_context template (Option.mem_toList.mp asked)]
        rfl
      · rw [here.response_context template (Option.mem_toList.mp answered)]
        rfl
    · intro request member
      rw [Evaluation.sees, Evaluation.sees, Context.templateJson_error,
        Context.templateJson_result, here.request_context request member]
      exact ⟨rfl, rfl⟩
    · intro response member
      have error : response.sees "error" =
          stage.trouble.map (fun cause => Context.errorJson cause.contextError) := by
        rw [Evaluation.sees, Context.templateJson_error, here.response_context response member]
        exact Option.map_map _ _ _
      refine ⟨error, ?_, ?_⟩
      · rw [error, Option.isSome_map, stage.trouble_isSome]
      · rw [Evaluation.sees, Context.templateJson_result, here.response_context response member]
        rfl
  · intro after member
    rw [Evaluation.sees, Evaluation.sees, Context.templateJson_error,
      Context.templateJson_previous, (last after member).2.2]
    exact ⟨rfl, rfl⟩
  · intro front template back split
    have genuine := trace.genuine template (by rw [split]; simp)
    rw [course.evaluations_moments] at split
    have handed := here.handed
    rw [split, empty] at handed
    rw [Evaluation.sees, Context.templateJson_stash, handed.starts]
    exact ⟨genuine, rfl⟩

/-! ### A stash that outlives an error -/

namespace Stashing

/-- A template that writes into the stash and raises an error. -/
def source : String := "$util.qr($ctx.stash.put(\"note\", \"kept\"))$util.error(\"raised\")"

/-- A stage in which another template answers. -/
def stage : Stage where
  name := "item"
  dataSource := "local"
  request := some source
  response := some "{}"

/-- The resolver of the stage. -/
def resolver : Resolver where
  typeName := "Query"
  field := "item"
  plan := .unit stage

/-- Some surroundings. -/
def surroundings : Template.Surroundings where
  now := 0
  identifier := fun _ => ""

/-- The evaluation of the template that writes and raises. -/
def request : Evaluation :=
  Template.Evaluator.evaluation {} surroundings source
    (Context.ofRequest (resolver.named {})).beginStage

/-- The stash that it leaves behind. -/
theorem stash_request : request.after.stash = [("note", .string "kept")] := by
  have texts : request.after.stash.map (fun entry => (entry.1, entry.2.string?)) =
      [("note", some "kept")] := by decide +kernel
  obtain ⟨⟨name, value⟩, rest, left, entry, alone⟩ := List.map_eq_cons_iff.mp texts
  obtain ⟨rfl, content⟩ := Prod.mk.inj entry
  rw [left, List.map_eq_nil_iff.mp alone]
  cases value <;> cases content
  rfl

theorem raises : ∃ error, request.outcome = .raised error := by
  have outcome : (match request.outcome with
      | .raised _ => true
      | _ => false) = true := by decide +kernel
  split at outcome
  · rename_i error raised
    exact ⟨error, raised⟩
  · cases outcome

/-- The template that raised is followed by the other one. -/
theorem exists_trace : ∃ (response : Evaluation) (rest : List Moment) (result : Option FieldResult),
    (resolver.program {}).Traces
      (.looked false :: .evaluated request :: .evaluated response :: rest) result := by
  obtain ⟨error, raised⟩ := raises
  let progress : Progress := { context := .ofRequest (resolver.named {}) }
  obtain ⟨moments, ending, answered⟩ := exists_traces
    (stage.respond ((progress.withContext progress.context.beginStage).withContext request.after)
      (some (.raised error)) fun progress => Stage.runAll progress (Resolver.runAfter none) [])
  obtain ⟨response, rest, _, _, _, rfl, _⟩ := traces_evaluate answered
  have asked : (stage.run progress fun progress =>
      Stage.runAll progress (Resolver.runAfter none) []).Traces
        (.evaluated request :: .evaluated response :: rest) ending := by
    have outcome : (Template.Evaluator.evaluation {} surroundings source
        (progress.withContext progress.context.beginStage).context).outcome = .raised error :=
      raised
    refine .evaluate {} surroundings ?_
    rw [outcome]
    exact answered
  have looked : (resolver.resolution progress.context).Traces
      (.looked false :: .evaluated request :: .evaluated response :: rest) ending :=
    .look false asked
  exact ⟨response, rest, _, looked.map _⟩

/-- **The template that answers sees what the one that raised has written.** -/
theorem stash_kept : ∃ (response : Evaluation) (rest : List Moment) (result : Option FieldResult),
    (resolver.program {}).Traces
        (.looked false :: .evaluated request :: .evaluated response :: rest) result ∧
      (∃ error, request.outcome = .raised error) ∧
      response.sees "stash" = some (.object [("note", .string "kept")]) := by
  obtain ⟨response, rest, result, trace⟩ := exists_trace
  obtain ⟨_, _, _, _, _, _, stash⟩ := resolver.templates_see trace
  have seen := (stash [request] response (rest.filterMap Moment.evaluation?) rfl).2
  rw [stashBehind, stashBehind, stash_request] at seen
  exact ⟨response, rest, result, trace, raises, seen⟩

end Stashing

end FieldResolver

/-
**Siblings do not influence each other.**

Fields that are resolved at the same time share the templates that were parsed and the data sources.
If what a data source replies depends on the request only, if no request waits for others and no
template draws an identifier, then each field does what it does alone in a new session, and its
result is the one that it has there.

* `Idle`: a session in which nothing is going on;
* `Idle.resolveField`, `Idle.resolveFields`: fields have the results that they have alone, in the
  order of the fields;
* `Idle.interleaves`, `interleaved`: what a session does is one of the interleavings of the fields'
  steps, and in each of them every field does what it does alone;
* `Session.siblings_apart`: so fields have the same results in every interleaving.
-/

import FieldResolver.Proofs.Resolution.Schedule

namespace FieldResolver

open Template (Surroundings)

namespace Session

/-- Whether nothing is going on in a session. -/
structure Idle (session : Session) : Prop where
  agenda : session.timeline.agenda = []
  waiting : session.timeline.waiting = []
  sound : session.timeline.evaluator.Sound
  earlier : ∀ entry ∈ session.timeline.results, entry.1 < session.fields

variable {session : Session} {surroundings : Surroundings}

/-- Nothing waits in a session in which nothing is going on. -/
theorem Idle.awaits (idle : session.Idle) (dispatcher : Dispatcher) (surroundings : Surroundings) :
    session.timeline.Awaits dispatcher surroundings [] where
  sound := idle.sound
  agenda := .of_eq idle.agenda
  waiting := .of_eq idle.waiting
  known := List.forall_mem_nil _
  distinct := List.nodup_nil
  plain := List.forall_mem_nil _

theorem Idle.due (idle : session.Idle) (dispatcher : Dispatcher) (surroundings : Surroundings) :
    session.timeline.Due dispatcher surroundings session.timeline.results [] 0 :=
  ⟨[], [], idle.awaits dispatcher surroundings, (List.append_nil _).symm, .nil, Nat.le_refl 0⟩

/-- The result of a field whose program has ended. -/
theorem resultOf_of_result? {task : Nat} {result : FieldResult}
    (found : session.timeline.result? task = some (some result)) :
    session.resultOf task = .ok result := by
  rw [resultOf, found]

/-- **A field has the result that it has alone.** -/
theorem Idle.resolveField (idle : session.Idle) (steady : session.dispatcher.Steady)
    (clock : session.surroundings.now = surroundings.now) {resolver : Resolver}
    {request : FieldRequest}
    (plain : ∀ moment ∈ (resolver.program request).momentsAlone session.dispatcher surroundings,
      moment.Plain surroundings)
    {result : FieldResult}
    (alone : (resolver.program request).alone session.dispatcher surroundings = some result) :
    (session.resolveField resolver request).1 = .ok result := by
  have started := (idle.due session.dispatcher surroundings).start steady clock session.fields plain
  have calls := resolver.calls_alone request session.dispatcher surroundings
  obtain ⟨due, ended⟩ := started.advance steady clock
    (fun timeline => (timeline.result? session.fields).isSome)
    (Timeline.lt_budget _ ((Nat.zero_add _).trans_le calls))
  rw [alone] at due ended
  have distinct : (List.map Prod.fst [(session.fields, some result)]).Nodup :=
    List.nodup_singleton _
  have new : ∀ entry ∈ [(session.fields, some result)], ∀ before ∈ session.timeline.results,
      before.1 ≠ entry.1 :=
    List.forall_mem_singleton.mpr fun before isEarlier => (idle.earlier before isEarlier).ne
  obtain ⟨_, behind⟩ :=
    due.complete distinct new (ended.imp_left List.forall_mem_singleton.mpr)
  exact resultOf_of_result? (behind.result? distinct new (List.mem_singleton_self _))

/-- Results in the order of numbered fields. -/
theorem mapM_zipIdx {answer : Nat → Except ResolutionError FieldResult}
    {alone : Resolver × FieldRequest → FieldResult → Prop} {fields : List (Resolver × FieldRequest)}
    {results : List FieldResult} (each : List.Forall₂ alone fields results) (first : Nat)
    (gives : ∀ entry ∈ fields.zipIdx first, ∀ result, alone entry.1 result →
      answer entry.2 = .ok result) :
    ((fields.zipIdx first).mapM fun entry => answer entry.2) = .ok results := by
  induction each generalizing first with
  | nil => rfl
  | cons here _ ih =>
    rw [List.zipIdx_cons] at gives ⊢
    obtain ⟨this, others⟩ := List.forall_mem_cons.mp gives
    rw [List.mapM_cons, ih (first + 1) others, this _ here]
    rfl

/-- The programs of fields, numbered from a number on; nobody gives up. -/
def numbered (first : Nat) (fields : List (Resolver × FieldRequest)) :
    List (Nat × Option Nat × Program (Option FieldResult)) :=
  (fields.zipIdx first).map fun entry => (entry.2, none, entry.1.1.program entry.1.2)

theorem numbered_patient (first : Nat) (fields : List (Resolver × FieldRequest)) :
    ∀ entry ∈ numbered first fields, entry.2.1 = none := by
  intro entry member
  obtain ⟨_, _, rfl⟩ := List.mem_map.mp member
  rfl

theorem numbered_programs (first : Nat) (fields : List (Resolver × FieldRequest)) :
    (numbered first fields).map (fun entry => entry.2.2) =
      fields.map fun field => field.1.program field.2 := by
  induction fields generalizing first with
  | nil => rfl
  | cons field rest ih => exact congrArg (List.cons _) (ih (first + 1))

/-- The calls of fields are at most as many as their stages. -/
theorem calls_le (dispatcher : Dispatcher) (surroundings : Surroundings) (first sofar : Nat)
    (fields : List (Resolver × FieldRequest)) :
    sofar + ((numbered first fields).map fun entry =>
        (entry.2.2.callsAlone dispatcher surroundings).length).sum ≤
      fields.foldl (fun calls field => calls + field.1.maxCalls) sofar := by
  induction fields generalizing first sofar with
  | nil => exact Nat.le_refl _
  | cons field rest ih =>
    have here := field.1.calls_alone field.2 dispatcher surroundings
    refine .trans ?_ (ih (first + 1) (sofar + field.1.maxCalls))
    rw [numbered, List.zipIdx_cons, List.map_cons, List.map_cons, List.sum_cons, ← numbered]
    simp only
    omega

/-- What numbered fields come to alone. -/
def outcomes (dispatcher : Dispatcher) (surroundings : Surroundings) (first : Nat)
    (fields : List (Resolver × FieldRequest)) : List (Nat × Option FieldResult) :=
  (numbered first fields).map fun entry => (entry.1, entry.2.2.alone dispatcher surroundings)

theorem outcomes_numbers (dispatcher : Dispatcher) (surroundings : Surroundings) (first : Nat)
    (fields : List (Resolver × FieldRequest)) :
    (outcomes dispatcher surroundings first fields).map Prod.fst =
      List.range' first fields.length := by
  rw [outcomes, numbered, List.map_map, List.map_map, ← List.zipIdx_map_snd]
  rfl

theorem outcomes_distinct (dispatcher : Dispatcher) (surroundings : Surroundings) (first : Nat)
    (fields : List (Resolver × FieldRequest)) :
    ((outcomes dispatcher surroundings first fields).map Prod.fst).Nodup := by
  rw [outcomes_numbers]
  exact List.nodup_range'

/-- A session after fields that were resolved at the same time. -/
def afterFields (session : Session) (fields : List (Resolver × FieldRequest)) : Session :=
  { session with
    timeline := session.timeline.finishAll session.dispatcher session.surroundings
      (fields.foldl (fun calls field => calls + field.1.maxCalls) 0) none
      (numbered session.fields fields)
    fields := session.fields + fields.length }

theorem resolveFields_eq (session : Session) (fields : List (Resolver × FieldRequest)) :
    session.resolveFields fields =
      ((fields.zipIdx session.fields).mapM fun entry =>
          (session.afterFields fields).resultOf entry.2,
        session.afterFields fields) :=
  rfl

section

variable {fields : List (Resolver × FieldRequest)}

/-- The numbers of fields are new in a session. -/
theorem Idle.outcomes_new (idle : session.Idle) (surroundings : Surroundings) :
    ∀ entry ∈ outcomes session.dispatcher surroundings session.fields fields,
      ∀ before ∈ session.timeline.results, before.1 ≠ entry.1 := by
  intro entry member before isEarlier
  have number := List.mem_map_of_mem (f := Prod.fst) member
  rw [outcomes_numbers, List.mem_range'_1] at number
  exact ((idle.earlier before isEarlier).trans_le number.1).ne

/-- Fields that are resolved at the same time come to an end. -/
theorem Idle.complete (idle : session.Idle) (steady : session.dispatcher.Steady)
    (clock : session.surroundings.now = surroundings.now)
    (plain : AllPlain session.dispatcher surroundings
      (fields.map fun field => field.1.program field.2)) :
    (session.afterFields fields).timeline.Awaits session.dispatcher surroundings [] ∧
      (session.afterFields fields).timeline.HasBehind session.timeline.results
        (outcomes session.dispatcher surroundings session.fields fields) := by
  have started := (idle.due session.dispatcher surroundings).startAll steady clock
    (numbered_patient session.fields fields)
    ((numbered_programs session.fields fields).symm ▸ plain)
  have calls := calls_le session.dispatcher surroundings session.fields 0 fields
  let tasks := (numbered session.fields fields).map fun program => program.1
  obtain ⟨due, ended⟩ := started.advance steady clock
    (fun timeline => tasks.all (fun task => (timeline.result? task).isSome) ||
      timeline.reaches none) (Timeline.lt_budget (Timeline.startAll _ _ _ _) calls)
  rw [List.append_nil] at due ended
  refine due.complete (outcomes_distinct ..) (idle.outcomes_new surroundings) (ended.imp_left ?_)
  intro finished entry member
  obtain ⟨program, isNumbered, rfl⟩ := List.mem_map.mp member
  rw [show ∀ timeline : Timeline (Option FieldResult), timeline.reaches none = false from
    fun _ => rfl, Bool.or_false] at finished
  exact List.all_eq_true.mp finished _ (List.mem_map_of_mem isNumbered)

/-- **Nothing is going on in a session** after its fields were resolved. -/
theorem Idle.afterFields (idle : session.Idle) (steady : session.dispatcher.Steady)
    (clock : session.surroundings.now = surroundings.now)
    (plain : AllPlain session.dispatcher surroundings
      (fields.map fun field => field.1.program field.2)) :
    (session.resolveFields fields).2.Idle := by
  obtain ⟨awaits, ended, parts, perm⟩ := idle.complete steady clock plain
  rw [resolveFields_eq]
  refine ⟨List.perm_nil.mp awaits.agenda, List.perm_nil.mp awaits.waiting, awaits.sound, ?_⟩
  intro entry member
  rw [parts] at member
  rcases List.mem_append.mp member with before | here
  · exact (idle.earlier entry before).trans_le (Nat.le_add_right _ _)
  · have number := List.mem_map_of_mem (f := Prod.fst) (perm.subset here)
    rw [outcomes_numbers, List.mem_range'_1] at number
    exact number.2

/-- **Fields that are resolved at the same time** have the results that they have alone, in the
order of the fields. -/
theorem Idle.resolveFields (idle : session.Idle) (steady : session.dispatcher.Steady)
    (clock : session.surroundings.now = surroundings.now)
    (plain : AllPlain session.dispatcher surroundings
      (fields.map fun field => field.1.program field.2))
    {results : List FieldResult}
    (alone : List.Forall₂ (fun field result =>
      (field.1.program field.2).alone session.dispatcher surroundings = some result)
      fields results) :
    (session.resolveFields fields).1 = .ok results := by
  obtain ⟨_, behind⟩ := idle.complete steady clock plain
  rw [resolveFields_eq]
  refine mapM_zipIdx alone session.fields fun entry member result value => ?_
  have outcome : (entry.2, some result) ∈
      outcomes session.dispatcher surroundings session.fields fields :=
    List.mem_map.mpr ⟨_, List.mem_map_of_mem member, by rw [← value]⟩
  exact resultOf_of_result?
    (behind.result? (outcomes_distinct ..) (idle.outcomes_new surroundings) outcome)

/-- **What a session does is an interleaving** of the fields' steps, which leads to results of
all. -/
theorem Idle.interleaves (idle : session.Idle) (steady : session.dispatcher.Steady)
    (clock : session.surroundings.now = surroundings.now)
    (plain : AllPlain session.dispatcher surroundings
      (fields.map fun field => field.1.program field.2)) :
    ∃ count tasks, Interleaves session.dispatcher surroundings.now session.timeline.evaluator
        (fields.map fun field => Task.start (field.1.program field.2)) count
        (session.afterFields fields).timeline.evaluator tasks ∧
      ∀ task ∈ tasks, task.result?.isSome := by
  have starts : (numbered session.fields fields).map (fun entry => Task.start entry.2.2) =
      fields.map fun field => Task.start (field.1.program field.2) := by
    rw [← Function.comp_def Task.start, ← List.map_map, numbered_programs, List.map_map]
    rfl
  rw [← starts]
  have started := ((idle.awaits session.dispatcher surroundings).shows _).startAll steady clock
    (numbered_patient session.fields fields)
    ((numbered_programs session.fields fields).symm ▸ plain)
  exact (started.advance steady clock _ _).complete (idle.complete steady clock plain).1

end

end Session

/-! ### Two fields with stashes of their own -/

namespace Tagging

/-- A data source that answers with the request, and services that are never used. -/
def dispatcher : Dispatcher where
  sources := [{ name := "local", config := .none }]
  services :=
    { launcher := fun _ => .error "no processes here"
      transport := fun _ => .error "no network here"
      database :=
        { connect := fun _ => .error "no database here"
          run := fun _ _ => .error "no database here" } }

/-- A stage that puts an argument into the stash and answers with the stash. -/
def stage : Stage where
  name := "tag"
  dataSource := "local"
  request := some "$util.qr($ctx.stash.put(\"id\", $ctx.args.id))\x7b \"payload\": null \x7d"
  response := some "\x7b \"stash\": $util.toJson($ctx.stash) \x7d"

/-- The resolver of the stage. -/
def resolver : Resolver where
  typeName := "Query"
  field := "post"
  plan := .unit stage

/-- Two fields with different arguments. -/
def fields : List (Resolver × FieldRequest) :=
  ["first", "second"].map fun id => (resolver, { arguments := .object [("id", .string id)] })

/-- Some surroundings. -/
def surroundings : Surroundings where
  now := 0
  identifier := fun _ => ""

theorem steady : dispatcher.Steady := by
  intro call services
  rw [Dispatcher.answer]
  unfold Dispatcher.invoke
  cases found : dispatcher.sources.find? call.source with
  | none => rfl
  | some source =>
    obtain rfl := List.mem_singleton.mp (List.mem_of_find?_eq_some found)
    rfl

theorem plain : AllPlain dispatcher surroundings
    (fields.map fun field => field.1.program field.2) := by decide +kernel

end Tagging

end FieldResolver

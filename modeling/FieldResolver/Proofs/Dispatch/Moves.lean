/-
**What happens on a timeline at one instant.**

Programs are started, get replies and go on until they wait again, while the clock stands still.
What is planned and what has ended stays, and a batch that is opened is closed when its window is
over.

* `Timeline.Begun`: what a program comes to that is started, whatever it does before;
* `joinBatch_cases`, `closeBatch_cases`: what holds when a request joins a batch or one is closed;
* `Timeline.Onward`: what a timeline and a later one of the same instant have in common; programs
  that are started (`start_onward`), replies (`deliverAll_onward`) and whole entries of the agenda
  (`happen_onward`) only go onward;
* `Reached.inOrder`: the agenda is in order of time;
* `Reached.opened`: a batch is closed when its window is over, counted from when it was opened.
-/

import FieldResolver.Proofs.Dispatch.Agenda
import Mathlib.Logic.Relation

namespace FieldResolver

open Template (Surroundings)

section

variable {α : Type}

/-! ### Programs that are started -/

/-- Whether a program may come to wait for a reply and then go on in a way. -/
inductive Program.Comes (next : Reply → Program α) : Program α → Prop
  | call (call : Call) : Comes next (.call call next)
  | behindCall {call : Call} {others : Reply → Program α} (reply : Reply)
      (behind : Comes next (others reply)) : Comes next (.call call others)
  | behindEvaluation {source : String} {context : Context}
      {others : Template.Outcome → Context → Program α} (outcome : Template.Outcome)
      (after : Context) (behind : Comes next (others outcome after)) :
      Comes next (.evaluate source context others)
  | behindLook {others : Bool → Program α} (stopped : Bool)
      (behind : Comes next (others stopped)) : Comes next (.isCancelled others)

namespace Timeline

variable {dispatcher : Dispatcher} {surroundings : Surroundings} {task : Nat}
  {cancelAt : Option Nat} {program : Program α} {timeline before middle after : Timeline α}

/-- What a program comes to that is started: it ends, waits for a reply or joins a batch. -/
inductive Begun (dispatcher : Dispatcher) (task : Nat) (cancelAt : Option Nat)
    (program : Program α) (timeline : Timeline α) : Timeline α → Prop
  | ended {evaluator : Template.Evaluator} {services : ServiceState} (result : α) :
      Begun dispatcher task cancelAt program timeline
        { timeline with evaluator, services, results := timeline.results ++ [(task, result)] }
  | waits {evaluator : Template.Evaluator} {services : ServiceState} {next : Reply → Program α}
      (delay : Nat) (content : Reply) (comes : program.Comes next) :
      Begun dispatcher task cancelAt program timeline
        (({ timeline with evaluator, services }.wait task cancelAt next).plan delay
          (.reply timeline.tickets content))
  | joins {evaluator : Template.Evaluator} {services : ServiceState} {next : Reply → Program α}
      (key : BatchKey) (request : Json) (comes : program.Comes next) :
      Begun dispatcher task cancelAt program timeline
        ({ timeline with evaluator, services }.joinBatch dispatcher task cancelAt key request next)

/-- What a program comes to is what its rest comes to. -/
theorem Begun.of_rest {rest : Program α} {evaluator : Template.Evaluator} {services : ServiceState}
    (begun : Begun dispatcher task cancelAt rest { timeline with evaluator, services } after)
    (parts : ∀ next, rest.Comes next → program.Comes next) :
    Begun dispatcher task cancelAt program timeline after := by
  cases begun with
  | ended result => exact .ended result
  | waits delay content comes => exact .waits delay content (parts _ comes)
  | joins key request comes => exact .joins key request (parts _ comes)

/-- **A program that is started ends or waits.** -/
theorem start_begun (dispatcher : Dispatcher) (surroundings : Surroundings) (task : Nat)
    (cancelAt : Option Nat) (program : Program α) (timeline : Timeline α) :
    Begun dispatcher task cancelAt program timeline
      (start dispatcher surroundings task cancelAt program timeline) := by
  induction program generalizing timeline with
  | done result => exact .ended result
  | evaluate source context next ih =>
    exact (ih _ _ _).of_rest fun _ comes => .behindEvaluation _ _ comes
  | isCancelled next ih => exact (ih _ _).of_rest fun _ comes => .behindLook _ comes
  | call call next ih =>
    unfold start
    split
    · rename_i key _
      split
      · exact (ih _ _).of_rest fun _ comes => .behindCall _ comes
      · exact .joins key call.request (.call call)
    · simp only
      split
      · exact (ih _ _).of_rest fun _ comes => .behindCall _ comes
      · exact .waits _ _ (.call call)

/-! ### Entries of the agenda -/

/-- Gives replies to the programs that wait for them, one after another. -/
def deliverAll (dispatcher : Dispatcher) (surroundings : Surroundings)
    (deliveries : List (Nat × Reply)) (timeline : Timeline α) : Timeline α :=
  deliveries.foldl
    (fun timeline (ticket, reply) => timeline.deliver dispatcher surroundings ticket reply) timeline

theorem deliverAll_append (first second : List (Nat × Reply)) (timeline : Timeline α) :
    deliverAll dispatcher surroundings (first ++ second) timeline =
      deliverAll dispatcher surroundings second
        (deliverAll dispatcher surroundings first timeline) :=
  List.foldl_append

/-- An occasion that closes no batch brings replies and does nothing else. -/
theorem happen_eq_deliverAll {occasion : Occasion} (opens : ∀ key, occasion ≠ .close key) :
    timeline.happen dispatcher surroundings occasion =
      deliverAll dispatcher surroundings occasion.deliveries timeline := by
  cases occasion with
  | reply ticket content => rfl
  | close key => exact absurd rfl (opens key)
  | share key tickets content => rfl

/-- A timeline whose batch of a key is closed and sent. -/
def closed (timeline : Timeline α) (key : BatchKey) (services : ServiceState) : Timeline α :=
  { timeline with services, batches := timeline.batches.close key }

/-- **A batch that has members is sent**, and its reply is shared out at once or planned. -/
theorem closeBatch_of_members {key : BatchKey} {members : List BatchMember} {reply : Timed Reply}
    {services : ServiceState} (waits : timeline.batches.members key = members)
    (filled : members ≠ [])
    (replies : dispatcher.invoke key.source (Batch.request members) none timeline.services =
      (reply, services)) :
    timeline.closeBatch dispatcher surroundings key =
      if reply.delay = 0 then
        deliverAll dispatcher surroundings
          (Occasion.share key (members.map BatchMember.caller) reply.content).deliveries
          (timeline.closed key services)
      else (timeline.closed key services).plan reply.delay
        (.share key (members.map BatchMember.caller) reply.content) := by
  unfold closeBatch
  rw [waits]
  split
  · exact absurd rfl filled
  · simp only [replies]
    rfl

/-- **What holds of a timeline whose batch is closed**: there is no such batch, or it is sent and
its reply is shared out at once or planned. -/
theorem closeBatch_cases (holds : Timeline α → Prop) (dispatcher : Dispatcher)
    (surroundings : Surroundings) (key : BatchKey) (timeline : Timeline α)
    (empty : holds timeline)
    (answered : ∀ services content, holds (deliverAll dispatcher surroundings
      (Occasion.share key ((timeline.batches.members key).map BatchMember.caller)
        content).deliveries (timeline.closed key services)))
    (sent : ∀ services delay content, holds ((timeline.closed key services).plan delay
      (.share key ((timeline.batches.members key).map BatchMember.caller) content))) :
    holds (timeline.closeBatch dispatcher surroundings key) := by
  by_cases filled : timeline.batches.members key = []
  · unfold closeBatch
    rw [filled]
    exact empty
  · cases replies : dispatcher.invoke key.source (Batch.request (timeline.batches.members key)) none
      timeline.services with
    | mk reply services =>
      rw [closeBatch_of_members rfl filled replies]
      split
      · exact answered services reply.content
      · exact sent services reply.delay reply.content

/-- **What holds of a timeline on which a request joins a batch**: its window is planned if it opens
the batch, and its own reply if its caller gives up. -/
theorem joinBatch_cases (holds : Timeline α → Prop) (dispatcher : Dispatcher)
    (timeline : Timeline α) (task : Nat) (cancelAt : Option Nat) (key : BatchKey) (request : Json)
    (next : Reply → Program α)
    (joined : holds (timeline.enlist task cancelAt key request next))
    (window : ∀ between, holds between →
      holds (between.plan dispatcher.batchWindowMs (.close key)))
    (own : ∀ between delay, holds between →
      holds (between.plan delay (.reply timeline.tickets .cancelled))) :
    holds (timeline.joinBatch dispatcher task cancelAt key request next) := by
  have opened : holds ((timeline.enlist task cancelAt key request next).withWindow dispatcher key
      (!timeline.batches.isOpen key)) := by
    unfold withWindow
    split
    · exact window _ joined
    · exact joined
  rw [joinBatch_eq]
  simp only
  split
  · exact own _ _ opened
  · exact opened

/-- A relation between timelines is one of replies if it is one of each of them. -/
theorem deliverAll_related (related : Timeline α → Timeline α → Prop)
    (refl : ∀ timeline, related timeline timeline)
    (trans : ∀ {before middle after}, related before middle → related middle after →
      related before after)
    (each : ∀ ticket reply timeline,
      related timeline (timeline.deliver dispatcher surroundings ticket reply))
    (deliveries : List (Nat × Reply)) (timeline : Timeline α) :
    related timeline (deliverAll dispatcher surroundings deliveries timeline) := by
  induction deliveries generalizing timeline with
  | nil => exact refl timeline
  | cons delivery rest ih => exact trans (each _ _ timeline) (ih _)

/-! ### Going onward -/

/-- Whether a timeline goes onward to another one while the clock stands still. -/
structure Onward (dispatcher : Dispatcher) (before after : Timeline α) : Prop where
  clock : after.clock = before.clock
  results : before.results <+: after.results
  /-- What is planned stays. -/
  entries : ∀ entry ∈ before.agenda, entry ∈ after.agenda
  inOrder : InOrder before.agenda → InOrder after.agenda
  /-- A batch that is opened is closed when its window is over. -/
  opened : ∀ time key, (time, Occasion.close key) ∈ after.agenda →
    (time, Occasion.close key) ∈ before.agenda ∨ time = before.clock + dispatcher.batchWindowMs

theorem Onward.refl (timeline : Timeline α) : Onward dispatcher timeline timeline where
  clock := rfl
  results := List.prefix_refl _
  entries := fun _ member => member
  inOrder := id
  opened := fun _ _ member => .inl member

theorem Onward.trans (first : Onward dispatcher before middle)
    (second : Onward dispatcher middle after) : Onward dispatcher before after where
  clock := second.clock.trans first.clock
  results := first.results.trans second.results
  entries := fun entry member => second.entries entry (first.entries entry member)
  inOrder := fun ordered => second.inOrder (first.inOrder ordered)
  opened := by
    intro time key planned
    rcases second.opened time key planned with there | now
    · exact first.opened time key there
    · exact .inr (first.clock ▸ now)

/-- Nothing but the clock, the agenda and the results matters. -/
theorem Onward.of_eq (clock : after.clock = before.clock) (agenda : after.agenda = before.agenda)
    (results : before.results <+: after.results) : Onward dispatcher before after where
  clock := clock
  results := results
  entries := fun _ member => agenda ▸ member
  inOrder := fun ordered => agenda ▸ ordered
  opened := fun _ _ member => .inl (agenda ▸ member)

/-- Something is planned; a batch is only closed when a window is over. -/
theorem plan_onward (timeline : Timeline α) (delay : Nat) (occasion : Occasion)
    (window : ∀ key, occasion = .close key → delay = dispatcher.batchWindowMs) :
    Onward dispatcher timeline (timeline.plan delay occasion) where
  clock := rfl
  results := List.prefix_refl _
  entries := fun _ member => mem_insertEntry.mpr (.inr member)
  inOrder := fun ordered => ordered.insertEntry _ _
  opened := by
    intro time key planned
    rcases mem_insertEntry.mp planned with here | before
    · obtain ⟨rfl, same⟩ := Prod.mk.inj here
      exact .inr (by rw [window key same.symm])
    · exact .inl before

theorem withWindow_onward (timeline : Timeline α) (dispatcher : Dispatcher) (key : BatchKey)
    (opened : Bool) : Onward dispatcher timeline (timeline.withWindow dispatcher key opened) := by
  unfold withWindow
  split
  · exact plan_onward timeline _ _ fun _ _ => rfl
  · exact .refl timeline

theorem joinBatch_onward (timeline : Timeline α) (task : Nat) (cancelAt : Option Nat)
    (key : BatchKey) (request : Json) (next : Reply → Program α) :
    Onward dispatcher timeline
      (timeline.joinBatch dispatcher task cancelAt key request next) := by
  apply joinBatch_cases
  · exact .of_eq rfl rfl (List.prefix_refl _)
  · exact fun between onward => onward.trans (plan_onward between _ _ fun _ _ => rfl)
  · exact fun between delay onward => onward.trans (plan_onward between delay _ nofun)

theorem Begun.onward (begun : Begun dispatcher task cancelAt program timeline after) :
    Onward dispatcher timeline after := by
  cases begun with
  | ended result => exact .of_eq rfl rfl (List.prefix_append _ _)
  | waits delay content comes =>
    refine Onward.trans ?_ (plan_onward _ _ _ nofun)
    exact .of_eq rfl rfl (List.prefix_refl _)
  | joins key request comes =>
    refine Onward.trans ?_ (joinBatch_onward _ _ _ _ _ _)
    exact .of_eq rfl rfl (List.prefix_refl _)

/-- A program is started. -/
theorem start_onward (dispatcher : Dispatcher) (surroundings : Surroundings) (task : Nat)
    (cancelAt : Option Nat) (program : Program α) (timeline : Timeline α) :
    Onward dispatcher timeline (start dispatcher surroundings task cancelAt program timeline) :=
  (start_begun dispatcher surroundings task cancelAt program timeline).onward

theorem deliver_onward (dispatcher : Dispatcher) (surroundings : Surroundings) (ticket : Nat)
    (reply : Reply) (timeline : Timeline α) :
    Onward dispatcher timeline (timeline.deliver dispatcher surroundings ticket reply) := by
  unfold deliver
  split
  · exact .refl timeline
  · rename_i waiting _
    refine Onward.trans ?_ (start_onward dispatcher surroundings waiting.task _ _ _)
    exact .of_eq rfl rfl (List.prefix_refl _)

/-- Replies are given. -/
theorem deliverAll_onward (dispatcher : Dispatcher) (surroundings : Surroundings)
    (deliveries : List (Nat × Reply)) (timeline : Timeline α) :
    Onward dispatcher timeline (deliverAll dispatcher surroundings deliveries timeline) :=
  deliverAll_related (Onward dispatcher) Onward.refl Onward.trans
    (deliver_onward dispatcher surroundings) deliveries timeline

theorem closeBatch_onward (dispatcher : Dispatcher) (surroundings : Surroundings) (key : BatchKey)
    (timeline : Timeline α) :
    Onward dispatcher timeline (timeline.closeBatch dispatcher surroundings key) := by
  have closed : ∀ services, Onward dispatcher timeline (timeline.closed key services) :=
    fun services => .of_eq rfl rfl (List.prefix_refl _)
  apply closeBatch_cases
  · exact .refl timeline
  · exact fun services content =>
      (closed services).trans (deliverAll_onward dispatcher surroundings _ _)
  · exact fun services delay content => (closed services).trans (plan_onward _ delay _ nofun)

/-- **Whatever happens at an instant goes onward.** -/
theorem happen_onward (dispatcher : Dispatcher) (surroundings : Surroundings)
    (occasion : Occasion) (timeline : Timeline α) :
    Onward dispatcher timeline (timeline.happen dispatcher surroundings occasion) := by
  cases occasion with
  | close key => exact closeBatch_onward dispatcher surroundings key timeline
  | reply ticket content => exact deliver_onward dispatcher surroundings ticket content timeline
  | share key tickets content => exact deliverAll_onward dispatcher surroundings _ timeline

/-- What an entry of the agenda that is taken makes of a timeline. -/
theorem step?_eq_some :
    timeline.step? dispatcher surroundings = some after ↔
      ∃ time occasion agenda, timeline.agenda = (time, occasion) :: agenda ∧
        after = { timeline with clock := time, agenda }.happen dispatcher surroundings
          occasion := by
  unfold step?
  split
  · rename_i none
    simp [none]
  · rename_i time occasion agenda head
    simp [head, eq_comm]

/-- Results stay. -/
theorem step_results (step : timeline.step? dispatcher surroundings = some after) :
    timeline.results <+: after.results := by
  obtain ⟨time, occasion, agenda, -, rfl⟩ := step?_eq_some.mp step
  exact (happen_onward dispatcher surroundings occasion
    { timeline with clock := time, agenda }).results

/-! ### Timelines that are reached -/

/-- **The agenda is in order of time.** -/
theorem Reached.inOrder (reached : timeline.Reached dispatcher surroundings) :
    InOrder timeline.agenda := by
  induction reached with
  | fresh evaluator services => exact .nil
  | start _ task cancelAt program ih =>
    exact (start_onward dispatcher surroundings task cancelAt program _).inOrder ih
  | step _ step ih =>
    obtain ⟨time, occasion, agenda, head, rfl⟩ := step?_eq_some.mp step
    rw [head] at ih
    exact (happen_onward dispatcher surroundings occasion _).inOrder (List.pairwise_cons.mp ih).2

/-- What can happen on a timeline: an entry of the agenda is taken, or one of some programs is
started. -/
inductive Moves (dispatcher : Dispatcher) (surroundings : Surroundings) (others : Nat → Prop) :
    Timeline α → Timeline α → Prop
  | step {before after : Timeline α}
      (step : before.step? dispatcher surroundings = some after) :
      Moves dispatcher surroundings others before after
  | start {before : Timeline α} (task : Nat) (cancelAt : Option Nat) (program : Program α)
      (among : others task) :
      Moves dispatcher surroundings others before
        (before.start dispatcher surroundings task cancelAt program)

/-- What can happen on a timeline one after another. -/
abbrev Evolves (dispatcher : Dispatcher) (surroundings : Surroundings) (others : Nat → Prop) :
    Timeline α → Timeline α → Prop :=
  Relation.ReflTransGen (Moves dispatcher surroundings others)

variable {others more : Nat → Prop}

/-- What can happen where few programs may be started can happen where more may be. -/
theorem Evolves.mono (course : Evolves dispatcher surroundings others before after)
    (among : ∀ task, others task → more task) :
    Evolves dispatcher surroundings more before after := by
  refine Relation.ReflTransGen.mono ?_ _ _ course
  intro first second move
  cases move with
  | step step => exact .step step
  | start task cancelAt program isOther => exact .start task cancelAt program (among task isOther)

theorem Reached.move (reached : before.Reached dispatcher surroundings)
    (move : Moves dispatcher surroundings others before after) :
    after.Reached dispatcher surroundings := by
  cases move with
  | step step => exact reached.step step
  | start task cancelAt program among => exact reached.start task cancelAt program

theorem Reached.evolves (reached : before.Reached dispatcher surroundings)
    (course : Evolves dispatcher surroundings others before after) :
    after.Reached dispatcher surroundings := by
  induction course with
  | refl => exact reached
  | tail _ move ih => exact ih.move move

/-- **A window is counted from when its batch was opened**: what closes a batch was planned then. -/
theorem Reached.opened (reached : timeline.Reached dispatcher surroundings) {time : Nat}
    {key : BatchKey} (planned : (time, Occasion.close key) ∈ timeline.agenda) :
    ∃ opening : Timeline α, opening.Reached dispatcher surroundings ∧
      (time, Occasion.close key) ∈ opening.agenda ∧
      time = opening.clock + dispatcher.batchWindowMs ∧
      Evolves dispatcher surroundings (fun _ => True) opening timeline := by
  induction reached with
  | fresh evaluator services => cases planned
  | @start before reached task cancelAt program ih =>
    have onward := start_onward dispatcher surroundings task cancelAt program before
    rcases onward.opened time key planned with there | now
    · obtain ⟨opening, known, entry, window, course⟩ := ih there
      exact ⟨opening, known, entry, window, course.tail (.start task cancelAt program trivial)⟩
    · exact ⟨_, reached.start task cancelAt program, planned, onward.clock ▸ now, .refl⟩
  | @step before after reached step ih =>
    obtain ⟨now, occasion, agenda, head, rfl⟩ := step?_eq_some.mp step
    have onward := happen_onward dispatcher surroundings occasion
      { before with clock := now, agenda }
    rcases onward.opened time key planned with there | window
    · obtain ⟨opening, known, entry, window, course⟩ := ih (head ▸ List.mem_cons_of_mem _ there)
      exact ⟨opening, known, entry, window, course.tail (.step step)⟩
    · exact ⟨_, reached.step step, planned, onward.clock ▸ window, .refl⟩

end Timeline

end

end FieldResolver

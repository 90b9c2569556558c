/-
**What comes first decides.**

A request to a data source is answered by the backend, by the end of its time or by its caller's
cancellation, whichever comes first: when it is sent for itself, and also when it waits in a batch
whose call starts when its window is over. In the second case the caller has its share of the answer
and only its own cancellation counts. The others on the timeline may do whatever they do.

* `start_of_gone`: a caller who has given up already is told so and calls nothing;
* `start_of_alone`: a request that is sent for itself;
* `Queued.at_rest`: a request in a batch;
* `first_instant_decides`: all of it.
-/

import FieldResolver.Proofs.Dispatch.Batched
import FieldResolver.Proofs.Dispatch.Rest

namespace FieldResolver

open Dispatcher (replyOf)
open Template (Surroundings)

/-! ### What a call comes to -/

namespace Dispatcher

variable (dispatcher : Dispatcher) (source : DataSource) (backend : Backend)

/-- What the backend of a data source answers, and when. -/
def answerOf (request : Json) (state : ServiceState) : Timed CallResult :=
  (backend.serve dispatcher.services source (dispatcher.timeoutOf source) request state).1

/-- Whether a reply is what the first of the instants of a call brings that starts at a time. -/
def Settles (start : Nat) (cancelAt : Option Nat) (request : Json) (state : ServiceState)
    (reply : Reply) : Prop :=
  let answer := dispatcher.answerOf source backend request state
  (dispatcher.race source start cancelAt answer (replyOf source answer.content)).Decides reply

/-- Whether a reply is what the first of the instants brings to the member of a batch at a place,
the call of the batch starting at a time. -/
def SettlesShare (start : Nat) (cancelAt : Option Nat) (key : BatchKey)
    (members : List BatchMember) (place : Nat) (state : ServiceState) (reply : Reply) : Prop :=
  let answer := dispatcher.answerOf source backend (Batch.request members) state
  ∃ share, (Batch.shares key.source members.length (replyOf source answer.content))[place]? =
      some share ∧
    (dispatcher.race source start cancelAt answer share).Decides reply

end Dispatcher

section

variable {α : Type}

namespace Timeline

variable {dispatcher : Dispatcher} {surroundings : Surroundings} {source : DataSource}
  {backend : Backend} {call : Call} {task ticket closeAt place : Nat} {key : BatchKey}
  {request : Json} {cancelAt : Option Nat} {result : Reply → α} {before timeline after : Timeline α}

/-- A request waits in the batch of its data source. -/
theorem source_of_batchOf? (batched : batchOf? dispatcher call = some key) :
    key.source = call.source := by
  unfold batchOf? at batched
  split at batched
  · split at batched
    · cases batched
      rfl
    · cases batched
  · cases batched

/-- **A caller who has given up already** is told so and calls nothing. -/
theorem start_of_gone (registered : dispatcher.sources.find? call.source = some source)
    (backed : dispatcher.backend? source.kind = some backend)
    (gone : before.untilTime cancelAt = some 0) :
    before.start dispatcher surroundings task cancelAt
        (.call call fun reply => .done (result reply)) =
      { before with results := before.results ++ [(task, result .cancelled)] } := by
  unfold start
  split
  · rw [gone, if_pos (beq_self_eq_true _)]
    rfl
  · rw [gone, Dispatcher.invoke_of_gone registered backed]
    rfl

/-- A program that waits for a reply that is planned. -/
theorem Unused.expects (unused : before.Unused task)
    (reached : before.Reached dispatcher surroundings) (cancelAt : Option Nat)
    (services : ServiceState) (delay : Nat) (content : Reply) :
    Expects before.tickets task result (before.clock + delay, content)
      (({ before with services }.wait task cancelAt fun reply => .done (result reply)).plan delay
        (.reply before.tickets content)) where
  waits := (unused.wait reached cancelAt _).of_eq rfl rfl rfl
  due := by
    have own : (Occasion.reply before.tickets content).told before.tickets = [content] := by
      simp [Occasion.told, Occasion.deliveries]
    show (tellings before.tickets (insertEntry _ _ before.agenda)).head? = _
    rw [tellings_insertEntry reached.inOrder, reached.tellings_of_new (Nat.le_refl _), own]
    rfl
  unbatched := reached.unbatched

/-- **A request that is sent for itself** has its reply at once or waits for it. -/
theorem start_of_alone (reached : before.Reached dispatcher surroundings)
    (unused : before.Unused task) (alone : batchOf? dispatcher call = none)
    (registered : dispatcher.sources.find? call.source = some source)
    (backed : dispatcher.backend? source.kind = some backend)
    (live : before.untilTime cancelAt ≠ some 0) (result : Reply → α) :
    ∃ reply due,
      dispatcher.Settles source backend before.clock cancelAt call.request before.services reply ∧
      (Expects before.tickets task result (due, reply)
          (before.start dispatcher surroundings task cancelAt
            (.call call fun reply => .done (result reply))) ∨
        (before.start dispatcher surroundings task cancelAt
          (.call call fun reply => .done (result reply))).result? task = some (result reply)) := by
  have later : ∀ c ∈ cancelAt, before.clock < c := by
    rintro c rfl
    by_contra past
    refine live (congrArg some ?_)
    show c - before.clock = 0
    omega
  obtain ⟨sent, services, invoked, settles⟩ : ∃ sent services,
      dispatcher.invoke call.source call.request (before.untilTime cancelAt) before.services =
        (sent, services) ∧
      dispatcher.Settles source backend before.clock cancelAt call.request before.services
        sent.content :=
    ⟨_, _, Dispatcher.invoke_of_backed registered backed call.request live before.services,
      Dispatcher.withCancellation_decides dispatcher source before.clock cancelAt _ later⟩
  refine ⟨sent.content, before.clock + sent.delay, settles, ?_⟩
  unfold start
  rw [alone]
  simp only [invoked]
  split
  · refine .inr ?_
    have ended : before.results.lookup task = none := unused.ended
    show (before.results ++ [(task, result sent.content)]).lookup task = _
    rw [List.lookup_append, ended, Option.none_or]
    exact List.lookup_cons_self
  · exact .inl (unused.expects reached cancelAt services sent.delay sent.content)

/-- Whether a batch is closed next, with a request in it. -/
structure Closes (closing : Timeline α) (closeAt : Nat) (key : BatchKey) (place caller : Nat)
    (request : Json) : Prop where
  next : ∃ agenda, closing.agenda = (closeAt, .close key) :: agenda
  member : (closing.batches.members key)[place]? = some { caller, request }

/-- **A request in a batch** comes to what the call of the batch does for it, where nothing more is
going to happen. -/
theorem Queued.at_rest
    (queued : timeline.Queued ticket task result cancelAt closeAt key place request)
    (reached : timeline.Reached dispatcher surroundings)
    (registered : dispatcher.sources.find? key.source = some source)
    (backed : dispatcher.backend? source.kind = some backend)
    (course : Evolves dispatcher surroundings (· ≠ task) timeline after)
    (rests : after.agenda = []) :
    ∃ closing reply, Evolves dispatcher surroundings (· ≠ task) timeline closing ∧
      Evolves dispatcher surroundings (· ≠ task) closing after ∧
      closing.Closes closeAt key place ticket request ∧
      dispatcher.SettlesShare source backend closeAt cancelAt key (closing.batches.members key)
        place closing.services reply ∧
      after.result? task = some (result reply) := by
  rcases queued.evolves reached course with still | ⟨closing, agenda, start, queued, head, course⟩
  · have closes := still.closes
    rw [rests] at closes
    cases closes
  · have step : closing.step? dispatcher surroundings = some
        (closeBatch dispatcher surroundings { closing with clock := closeAt, agenda } key) := by
      unfold step?
      rw [head]
      rfl
    obtain ⟨share, reply, due, shared, decides, ends⟩ :=
      queued.closed (reached.evolves start) head registered backed rfl
    refine ⟨closing, reply, start, course.head (.step step), ⟨⟨agenda, head⟩,
      queued.inBatch.member⟩, ⟨share, shared, decides⟩, ?_⟩
    rcases ends with expects | ended
    · exact expects.at_rest course rests
    · exact result?_stays course.results ended

/-- **What comes first decides.** A request that is sent for itself, on a timeline or not, is
answered by what the first of the three instants brings, counted from when it is sent. A request in
a batch is answered in the same way with its share of the answer, counted from when the window of
its batch is over, and by its own cancellation. A caller who has given up already is told so and
calls nothing. In all cases the others on the timeline may be started and go on as they like, and
the timeline comes to rest when its entries are taken. -/
theorem first_instant_decides (dispatcher : Dispatcher) (surroundings : Surroundings)
    {source : DataSource} {backend : Backend} (call : Call) (result : Reply → α)
    (registered : dispatcher.sources.find? call.source = some source)
    (backed : dispatcher.backend? source.kind = some backend) :
    (∀ state, dispatcher.invoke call.source call.request (some 0) state =
      ({ content := .cancelled }, state)) ∧
    (∀ cancelAfter state, cancelAfter ≠ some 0 →
      dispatcher.Settles source backend 0 cancelAfter call.request state
        (dispatcher.invoke call.source call.request cancelAfter state).1.content) ∧
    ∀ (before : Timeline α) (task : Nat) (cancelAt : Option Nat),
      before.Reached dispatcher surroundings → before.Unused task →
        let started := before.start dispatcher surroundings task cancelAt
          (.call call fun reply => .done (result reply))
        (∀ after, Evolves dispatcher surroundings (· ≠ task) started after →
          ∃ rest, Evolves dispatcher surroundings (fun _ => False) after rest ∧
            rest.agenda = []) ∧
        (before.untilTime cancelAt = some 0 →
          started = { before with results := before.results ++ [(task, result .cancelled)] }) ∧
        (before.untilTime cancelAt ≠ some 0 → batchOf? dispatcher call = none →
          ∃ reply, dispatcher.Settles source backend before.clock cancelAt call.request
              before.services reply ∧
            ∀ rest, Evolves dispatcher surroundings (· ≠ task) started rest → rest.agenda = [] →
              rest.result? task = some (result reply)) ∧
        (before.untilTime cancelAt ≠ some 0 → ∀ key, batchOf? dispatcher call = some key →
          ∃ closeAt,
            (before.batches.isOpen key = false →
              closeAt = before.clock + dispatcher.batchWindowMs) ∧
            (∃ opening : Timeline α, opening.Reached dispatcher surroundings ∧
              (closeAt, Occasion.close key) ∈ opening.agenda ∧
              closeAt = opening.clock + dispatcher.batchWindowMs ∧
              Evolves dispatcher surroundings (fun _ => True) opening started) ∧
            ∀ rest, Evolves dispatcher surroundings (· ≠ task) started rest → rest.agenda = [] →
              ∃ closing reply, Evolves dispatcher surroundings (· ≠ task) started closing ∧
                Evolves dispatcher surroundings (· ≠ task) closing rest ∧
                closing.Closes closeAt key (before.batches.members key).length before.tickets
                  call.request ∧
                dispatcher.SettlesShare source backend closeAt cancelAt key
                  (closing.batches.members key) (before.batches.members key).length
                  closing.services reply ∧
                rest.result? task = some (result reply)) := by
  refine ⟨?_, ?_, ?_⟩
  · exact fun state => Dispatcher.invoke_of_gone registered backed call.request state
  · intro cancelAfter state live
    exact (Dispatcher.invoke_decides registered backed call.request live state rfl).1
  · intro before task cancelAt reached unused started
    have startedReached : started.Reached dispatcher surroundings := reached.start task cancelAt _
    refine ⟨?_, ?_, ?_, ?_⟩
    · exact fun after _ => comes_to_rest dispatcher surroundings after
    · exact start_of_gone registered backed
    · intro live alone
      obtain ⟨reply, due, settles, ends⟩ :=
        start_of_alone reached unused alone registered backed live result
      refine ⟨reply, settles, fun rest course rests => ?_⟩
      rcases ends with expects | ended
      · exact expects.at_rest course rests
      · exact result?_stays course.results ended
    · intro live key batched
      have shape : started = before.joinBatch dispatcher task cancelAt key call.request
          fun reply => .done (result reply) := by
        show start _ _ _ _ _ _ = _
        unfold start
        rw [batched]
        simp only [beq_iff_eq, if_neg live]
      obtain ⟨closeAt, queued, opened⟩ := joinBatch_queued unused reached key call.request
        result live
      rw [← shape] at queued
      refine ⟨closeAt, opened, startedReached.opened queued.closes, ?_⟩
      have found : dispatcher.sources.find? key.source = some source := by
        rw [source_of_batchOf? batched]
        exact registered
      exact fun rest course rests => queued.at_rest startedReached found backed course rests

end Timeline

end

/-! ### A source that takes five milliseconds -/

namespace Unhurried

/-- A function that answers with its event after five milliseconds and may take twenty, and services
that are never used. -/
def source : DataSource where
  name := "orders"
  config := .function "orders" (.registered "mirror")
  timeoutMs := some 20

/-- A dispatcher for the function. -/
def dispatcher : Dispatcher where
  sources := [source]
  services :=
    { handlers := [("mirror", fun _ event => { delay := 5, content := .value event })]
      launcher := fun _ => .error "no processes here"
      transport := fun _ => .error "no network here"
      database :=
        { connect := fun _ => .error "no database here"
          run := fun _ _ => .error "no database here" } }

/-- Some surroundings. -/
def surroundings : Surroundings where
  now := 0
  identifier := fun _ => ""

/-- A request that is sent for itself. -/
def alone : Call where
  source := "orders"
  request := .object [("operation", .string "Invoke"), ("payload", .int 7)]

/-- A request that waits for others. -/
def batched : Call where
  source := "orders"
  field := some "Customer.orders"
  request := .object [("operation", .string "BatchInvoke"), ("payload", .int 7)]

/-- The batch of the request. -/
def key : BatchKey := { source := "orders", field := "Customer.orders" }

/-- A timeline on which a request is the first thing. -/
def started (cancelAt : Option Nat) (call : Call) : Timeline Reply :=
  Timeline.start dispatcher surroundings 0 cancelAt (.call call fun reply => .done reply) {}

theorem registered : dispatcher.sources.find? "orders" = some source := rfl

theorem backed : dispatcher.backend? source.kind = some .function := rfl

theorem unused : ({} : Timeline Reply).Unused 0 := ⟨nofun, rfl⟩

/-- **The answer is first** for a caller who waits nine milliseconds, and the cancellation for those
who give up before the answer is there, in a batch and outside. -/
theorem decided :
    (dispatcher.invoke "orders" alone.request (some 0) {}).1.content = .cancelled ∧
    (dispatcher.invoke "orders" alone.request (some 3) {}).1.content = .cancelled ∧
    (started (some 0) alone).results = [(0, .cancelled)] ∧
    (∃ rest, Timeline.Evolves dispatcher surroundings (· ≠ 0) (started (some 9) alone) rest ∧
      rest.agenda = [] ∧ rest.result? 0 = some (.value (.int 7))) ∧
    ∃ rest, Timeline.Evolves dispatcher surroundings (· ≠ 0) (started (some 4) batched) rest ∧
      rest.agenda = [] ∧ rest.result? 0 = some .cancelled := by
  obtain ⟨gone, sent, onTimeline⟩ := Timeline.first_instant_decides dispatcher surroundings
    alone (fun reply => reply) registered backed
  obtain ⟨-, -, inBatch⟩ := Timeline.first_instant_decides dispatcher surroundings batched
    (fun reply => reply) registered backed
  refine ⟨?_, ?_, ?_, ?_, ?_⟩
  · exact congrArg (fun outcome => outcome.1.content) (gone {})
  · have settles := sent (some 3) {} (by decide)
    exact settles.cancelled 3 rfl (by decide) (by decide)
  · obtain ⟨-, given, -⟩ := onTimeline {} 0 (some 0) (.fresh {} {}) unused
    exact congrArg Timeline.results (given rfl)
  · obtain ⟨comes, -, each, -⟩ := onTimeline {} 0 (some 9) (.fresh {} {}) unused
    obtain ⟨rest, entries, rests⟩ := comes _ .refl
    have course : Timeline.Evolves dispatcher surroundings (· ≠ 0) (started (some 9) alone) rest :=
      entries.mono nofun
    obtain ⟨reply, settles, ends⟩ := each (by decide) rfl
    refine ⟨rest, course, rests, ?_⟩
    rw [ends rest course rests]
    exact congrArg some (settles.answered (by decide) (by decide))
  · obtain ⟨comes, -, -, each⟩ := inBatch {} 0 (some 4) (.fresh {} {}) unused
    obtain ⟨rest, entries, rests⟩ := comes _ .refl
    have course : Timeline.Evolves dispatcher surroundings (· ≠ 0) (started (some 4) batched)
      rest := entries.mono nofun
    obtain ⟨closeAt, opened, -, ends⟩ := each (by decide) key rfl
    cases opened rfl
    obtain ⟨closing, reply, -, -, -, ⟨share, -, decides⟩, result⟩ := ends rest course rests
    refine ⟨rest, course, rests, ?_⟩
    rw [result]
    -- The call starts after one millisecond and has its answer after five more.
    exact congrArg some (decides.cancelled 4 rfl (by show 4 < 1 + 5; decide)
      (by show 4 < 1 + 20; decide))

end Unhurried

end FieldResolver

/-
**Programs in time.**

A timeline runs any number of programs that share an evaluator, a dispatcher and its batches. Its
clock stands still while programs run and moves on when all of them wait: to the next entry of the
agenda. A program waits for the reply to a call, or for its share in the reply to a batch; a batch
is open for a while after its first request, and its call then belongs to none of the callers, so
that one who gives up changes nothing for the others.

* `start` lets a program run until it waits, and `advance` takes entries from the agenda;
* `finish` runs one program to its end, `finishAll` several at the same time.
-/

import FieldResolver.Dispatch.Batch
import FieldResolver.Resolution.Program

namespace FieldResolver

/-- What happens at a time. -/
inductive Occasion where
  /-- A wait ends with a reply; it has no effect if the wait is over. -/
  | reply (ticket : Nat) (content : Reply)
  /-- A batch closes and is sent. -/
  | close (key : BatchKey)
  /-- The reply to a batch is shared out. -/
  | share (key : BatchKey) (tickets : List Nat) (content : Reply)

/-- A program that waits. -/
structure Waiting (α : Type) where
  ticket : Nat
  /-- The number of the program. -/
  task : Nat
  /-- When the caller gives up. -/
  cancelAt : Option Nat
  next : Reply → Program α

/-- The state of programs that share their surroundings. -/
structure Timeline (α : Type) where
  /-- The time since the start, in milliseconds. -/
  clock : Nat := 0
  evaluator : Template.Evaluator := {}
  services : ServiceState := {}
  batches : Batches := []
  /-- What is going to happen and when, in order of time. -/
  agenda : List (Nat × Occasion) := []
  waiting : List (Waiting α) := []
  /-- The number of waits so far. -/
  tickets : Nat := 0
  /-- The programs that have ended, with their results. -/
  results : List (Nat × α) := []

namespace Timeline

section

variable {α : Type}

/-- Puts an entry behind all that are not later. -/
def insertEntry (time : Nat) (occasion : Occasion) :
    List (Nat × Occasion) → List (Nat × Occasion)
  | [] => [(time, occasion)]
  | (other, entry) :: rest =>
    if other ≤ time then (other, entry) :: insertEntry time occasion rest
    else (time, occasion) :: (other, entry) :: rest

/-- Plans an occasion after a delay. -/
def plan (timeline : Timeline α) (delay : Nat) (occasion : Occasion) : Timeline α :=
  { timeline with agenda := insertEntry (timeline.clock + delay) occasion timeline.agenda }

/-- How long it is until a time. -/
def untilTime (timeline : Timeline α) (time : Option Nat) : Option Nat :=
  time.map (· - timeline.clock)

/-- Lets a program wait under a new ticket. -/
def wait (timeline : Timeline α) (task : Nat) (cancelAt : Option Nat)
    (next : Reply → Program α) : Timeline α :=
  { timeline with
    waiting := timeline.waiting ++ [{ ticket := timeline.tickets, task, cancelAt, next }]
    tickets := timeline.tickets + 1 }

/-- The result of a program, if it has ended. -/
def result? (timeline : Timeline α) (task : Nat) : Option α := timeline.results.lookup task

variable (dispatcher : Dispatcher) (surroundings : Template.Surroundings)

/-- Lets a request join its batch and its caller wait; the first request of a batch plans when the
batch closes. -/
def joinBatch (timeline : Timeline α) (task : Nat) (cancelAt : Option Nat) (key : BatchKey)
    (request : Json) (next : Reply → Program α) : Timeline α :=
  let ticket := timeline.tickets
  let opened := !timeline.batches.isOpen key
  let timeline := timeline.wait task cancelAt next
  let batches := timeline.batches.join key { caller := ticket, request }
  let timeline := { timeline with batches }
  let timeline :=
    if opened then timeline.plan dispatcher.batchWindowMs (.close key) else timeline
  match timeline.untilTime cancelAt with
  | some delay => timeline.plan delay (.reply ticket .cancelled)
  | none => timeline

/-- The batch that a call belongs to. -/
def batchOf? (call : Call) : Option BatchKey :=
  match call.field with
  | some field =>
    if Batch.accepts call.request && dispatcher.isFunction call.source then
      some { source := call.source, field }
    else none
  | none => none

/-- Lets a program run until it ends or waits. -/
def start (task : Nat) (cancelAt : Option Nat) : Program α → Timeline α → Timeline α
  | .done result, timeline => { timeline with results := timeline.results ++ [(task, result)] }
  | .isCancelled next, timeline =>
    start task cancelAt (next (timeline.untilTime cancelAt == some 0)) timeline
  | .evaluate source context next, timeline =>
    let (outcome, context, evaluator) :=
      timeline.evaluator.evaluate surroundings source context
    start task cancelAt (next outcome context) { timeline with evaluator }
  | .call call next, timeline =>
    match batchOf? dispatcher call with
    | some key =>
      if timeline.untilTime cancelAt == some 0 then start task cancelAt (next .cancelled) timeline
      else timeline.joinBatch dispatcher task cancelAt key call.request next
    | none =>
      let (reply, services) :=
        dispatcher.invoke call.source call.request (timeline.untilTime cancelAt) timeline.services
      let timeline := { timeline with services }
      if reply.delay = 0 then start task cancelAt (next reply.content) timeline
      else
        let ticket := timeline.tickets
        (timeline.wait task cancelAt next).plan reply.delay (.reply ticket reply.content)

/-- Gives a reply to the program that waits for it; nothing happens if none does any more. -/
def deliver (timeline : Timeline α) (ticket : Nat) (reply : Reply) : Timeline α :=
  match timeline.waiting.find? fun waiting => waiting.ticket = ticket with
  | none => timeline
  | some waiting =>
    start dispatcher surroundings waiting.task waiting.cancelAt (waiting.next reply)
      { timeline with waiting := timeline.waiting.filter fun other => other.ticket ≠ ticket }

/-- Shares a reply out among the members of a batch. -/
def shareOut (timeline : Timeline α) (key : BatchKey) (tickets : List Nat) (reply : Reply) :
    Timeline α :=
  (tickets.zip (Batch.shares key.source tickets.length reply)).foldl
    (fun timeline (ticket, share) => timeline.deliver dispatcher surroundings ticket share) timeline

/-- Closes a batch and sends its request. -/
def closeBatch (timeline : Timeline α) (key : BatchKey) : Timeline α :=
  match timeline.batches.members key with
  | [] => timeline
  | members =>
    let tickets := members.map BatchMember.caller
    let (reply, services) :=
      dispatcher.invoke key.source (Batch.request members) none timeline.services
    let timeline := { timeline with services, batches := timeline.batches.close key }
    if reply.delay = 0 then timeline.shareOut dispatcher surroundings key tickets reply.content
    else timeline.plan reply.delay (.share key tickets reply.content)

/-- Lets an occasion happen. -/
def happen (timeline : Timeline α) : Occasion → Timeline α
  | .reply ticket content => timeline.deliver dispatcher surroundings ticket content
  | .close key => timeline.closeBatch dispatcher surroundings key
  | .share key tickets content => timeline.shareOut dispatcher surroundings key tickets content

/-- Takes the next entry from the agenda. -/
def step? (timeline : Timeline α) : Option (Timeline α) :=
  match timeline.agenda with
  | [] => none
  | (time, occasion) :: agenda =>
    some ({ timeline with clock := time, agenda }.happen dispatcher surroundings occasion)

/-- Takes entries from the agenda until something holds; the budget bounds their number. -/
def advance (finished : Timeline α → Bool) : Nat → Timeline α → Timeline α
  | 0, timeline => timeline
  | budget + 1, timeline =>
    if finished timeline then timeline
    else
      match timeline.step? dispatcher surroundings with
      | none => timeline
      | some timeline => advance finished budget timeline

/-- How many entries there can be for the entries of the agenda and a number of calls: each call
may plan the close of a batch, the share and the caller's own reply. -/
def budget (timeline : Timeline α) (calls : Nat) : Nat := timeline.agenda.length + 3 * calls + 1

/-- Runs a program that makes at most a number of calls to its end. -/
def finish (timeline : Timeline α) (task calls : Nat) (cancelAfter : Option Nat)
    (program : Program α) : Timeline α :=
  let cancelAt := cancelAfter.map (timeline.clock + ·)
  let started := start dispatcher surroundings task cancelAt program timeline
  advance dispatcher surroundings (fun timeline => (timeline.result? task).isSome)
    (started.budget calls) started

/-- Starts programs one after another, each with its number and when its caller gives up. -/
def startAll (programs : List (Nat × Option Nat × Program α)) (timeline : Timeline α) :
    Timeline α :=
  programs.foldl
    (fun timeline (task, cancelAfter, program) =>
      start dispatcher surroundings task (cancelAfter.map (timeline.clock + ·)) program timeline)
    timeline

/-- Whether the next entry of the agenda is not before a time. -/
def reaches (timeline : Timeline α) (time : Option Nat) : Bool :=
  match time, timeline.agenda with
  | some time, (next, _) :: _ => time ≤ next
  | _, _ => false

/-- Runs programs that make at most a number of calls together at the same time until all have
ended, but no further than to a time. -/
def finishAll (timeline : Timeline α) (calls : Nat) (deadline : Option Nat)
    (programs : List (Nat × Option Nat × Program α)) : Timeline α :=
  let started := startAll dispatcher surroundings programs timeline
  let tasks := programs.map fun program => program.1
  advance dispatcher surroundings
    (fun timeline =>
      tasks.all (fun task => (timeline.result? task).isSome) || timeline.reaches deadline)
    (started.budget calls) started

end

end Timeline

end FieldResolver

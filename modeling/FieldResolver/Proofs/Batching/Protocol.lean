/-
**Batching as a protocol.**

Requests arrive, windows expire, functions answer and callers give up, in any order. A state holds
the open batches, the windows that are running, the calls of closed batches, and what the callers
know; `Step` has one rule for each thing that can happen. A call may be answered with any reply that
the dispatcher can give to the request of its batch, whatever the state of the services.

* `Reachable`: the states that steps lead to when nothing has happened at the start;
* `State.Holds`: the place of a request, in an open batch, in a call in flight or in an answered
  one;
* `Reachable.without`: what a caller does who gives up is invisible to all others.
-/

import FieldResolver.Resolution.Timeline
import Mathlib.Data.List.Nodup

namespace FieldResolver.Batching

/-- A call of a batch: the members in the order in which they came, and the reply once it is
there. -/
structure BatchCall where
  key : BatchKey
  members : List BatchMember
  reply? : Option Reply := none

namespace BatchCall

/-- The callers of the members. -/
def callers (call : BatchCall) : List Nat := call.members.map BatchMember.caller

/-- The requests of the members, each with the key. -/
def requests (call : BatchCall) : List (BatchKey × BatchMember) := call.members.map (call.key, ·)

/-- The shares of the members in a reply. -/
def sharesOf (call : BatchCall) (reply : Reply) : List (Nat × Reply) :=
  call.callers.zip (Batch.shares call.key.source call.members.length reply)

/-- The shares that the members have; none before the reply. -/
def shares (call : BatchCall) : List (Nat × Reply) :=
  match call.reply? with
  | none => []
  | some reply => call.sharesOf reply

/-- Whether the function can answer a call with a reply. -/
def Answers (dispatcher : Dispatcher) (call : BatchCall) (reply : Reply) : Prop :=
  ∃ services,
    (dispatcher.invoke call.key.source (Batch.request call.members) none services).1.content = reply

end BatchCall

/-- A state of the protocol. -/
structure State where
  batches : Batches := []
  /-- The batches whose windows are running. -/
  timers : List BatchKey := []
  /-- The calls so far, in the order in which they were sent. -/
  calls : List BatchCall := []
  /-- The requests that joined a batch, in the order in which they came. -/
  accepted : List (BatchKey × BatchMember) := []
  /-- The callers whose cancellation tokens have fired. -/
  fired : List Nat := []
  /-- What callers were answered. -/
  outcomes : List (Nat × Reply) := []

namespace State

/-- Whether a caller has made no request yet. -/
def Fresh (s : State) (caller : Nat) : Prop :=
  caller ∉ s.accepted.map (fun request => request.2.caller) ∧ caller ∉ s.outcomes.map Prod.fst

/-- Whether a caller's request joined a batch and the caller was not answered yet. -/
def Waits (s : State) (caller : Nat) : Prop :=
  caller ∈ s.accepted.map (fun request => request.2.caller) ∧ caller ∉ s.outcomes.map Prod.fst

instance (s : State) (caller : Nat) : Decidable (s.Fresh caller) :=
  inferInstanceAs (Decidable (_ ∧ _))

instance (s : State) (caller : Nat) : Decidable (s.Waits caller) :=
  inferInstanceAs (Decidable (_ ∧ _))

/-- The shares that all calls have given so far. -/
def shares (s : State) : List (Nat × Reply) := s.calls.flatMap BatchCall.shares

/-- The requests for a key that joined a batch, in the order in which they came. -/
def acceptedFor (s : State) (key : BatchKey) : List BatchMember :=
  (s.accepted.filter fun request => request.1 = key).map Prod.snd

/-- The members of the calls for a key, call after call. -/
def calledFor (s : State) (key : BatchKey) : List BatchMember :=
  s.calls.flatMap fun call => if call.key = key then call.members else []

/-- A request joins the batch of its key; the first one starts the window. -/
def enqueue (s : State) (key : BatchKey) (member : BatchMember) : State :=
  { s with
    batches := s.batches.join key member
    timers := if s.batches.isOpen key then s.timers else s.timers ++ [key]
    accepted := s.accepted ++ [(key, member)] }

/-- A window expires: its batch is closed and sent. -/
def flush (s : State) (key : BatchKey) : State :=
  { s with
    batches := s.batches.close key
    timers := s.timers.erase key
    calls := if (s.batches.members key).isEmpty then s.calls
      else s.calls ++ [{ key, members := s.batches.members key }] }

/-- A call is answered. -/
def settle (s : State) (place : Nat) (call : BatchCall) (reply : Reply) : State :=
  { s with calls := s.calls.set place { call with reply? := some reply } }

/-- A caller is answered. -/
def answer (s : State) (caller : Nat) (reply : Reply) : State :=
  { s with outcomes := s.outcomes ++ [(caller, reply)] }

/-- A caller's token fires. -/
def fire (s : State) (caller : Nat) : State := { s with fired := caller :: s.fired }

end State

section

variable (dispatcher : Dispatcher)

/-- What can happen. -/
inductive Step : State → State → Prop where
  /-- A request for a batch arrives and its caller has not given up. -/
  | arrive {s : State} (caller : Nat) (call : Call) (key : BatchKey)
      (batched : Timeline.batchOf? dispatcher call = some key) (fresh : s.Fresh caller)
      (live : caller ∉ s.fired) :
      Step s (s.enqueue key { caller, request := call.request })
  /-- A request arrives whose caller has given up already. -/
  | refuse {s : State} (caller : Nat) (fresh : s.Fresh caller) (gone : caller ∈ s.fired) :
      Step s (s.answer caller .cancelled)
  /-- A window expires. -/
  | expire {s : State} (key : BatchKey) (running : key ∈ s.timers) : Step s (s.flush key)
  /-- The function answers a call. -/
  | reply {s : State} (place : Nat) (call : BatchCall) (reply : Reply)
      (sent : s.calls[place]? = some call) (inFlight : call.reply? = none)
      (answers : call.Answers dispatcher reply) : Step s (s.settle place call reply)
  /-- A token fires. -/
  | fire {s : State} (caller : Nat) : Step s (s.fire caller)
  /-- A caller whose token has fired stops waiting. -/
  | giveUp {s : State} (caller : Nat) (waits : s.Waits caller) (gone : caller ∈ s.fired) :
      Step s (s.answer caller .cancelled)
  /-- A caller takes its share. -/
  | receive {s : State} (caller : Nat) (share : Reply) (waits : s.Waits caller)
      (shared : (caller, share) ∈ s.shares) : Step s (s.answer caller share)

/-- The states that steps lead to. -/
inductive Reachable : State → Prop where
  | start : Reachable {}
  | step {s s' : State} (reached : Reachable s) (step : Step dispatcher s s') : Reachable s'

end

/-! ### Where a request is -/

/-- The places of requests; positions count from zero. -/
inductive Place where
  /-- In the open batch of a key. -/
  | waiting (key : BatchKey) (position : Nat)
  /-- In a call without a reply. -/
  | inFlight (call position : Nat)
  /-- In a call with a reply. -/
  | answered (call position : Nat)

/-- Whether a request is at a place. -/
def State.Holds (s : State) (member : BatchMember) : Place → Prop
  | .waiting key position => (s.batches.members key)[position]? = some member
  | .inFlight place position =>
    ∃ call, s.calls[place]? = some call ∧ call.reply? = none ∧ call.members[position]? = some member
  | .answered place position =>
    ∃ call, s.calls[place]? = some call ∧ call.reply? ≠ none ∧ call.members[position]? = some member

/-! ### A run without one caller's cancellation -/

section

variable {dispatcher : Dispatcher} {s s' : State}

/-- A state as it would be if a caller had neither given up nor been answered. -/
def State.without (s : State) (caller : Nat) : State :=
  { s with
    fired := s.fired.filter (· ≠ caller)
    outcomes := s.outcomes.filter fun outcome => outcome.1 ≠ caller }

theorem not_mem_fired_without (s : State) (caller : Nat) : caller ∉ (s.without caller).fired := by
  simp [State.without]

/-- Answering the caller leaves no trace. -/
theorem without_answer_self (s : State) (caller : Nat) (reply : Reply) :
    (s.answer caller reply).without caller = s.without caller := by
  simp [State.answer, State.without]

/-- Answering another caller does. -/
theorem without_answer_of_ne (s : State) {caller other : Nat} (reply : Reply)
    (different : other ≠ caller) :
    (s.answer other reply).without caller = (s.without caller).answer other reply := by
  simp [State.answer, State.without, different]

theorem mem_fired_without {caller other : Nat} (different : other ≠ caller)
    (gone : other ∈ s.fired) : other ∈ (s.without caller).fired := by
  simp [State.without, gone, different]

theorem not_mem_outcomes_without {other : Nat} (caller : Nat)
    (unanswered : other ∉ s.outcomes.map Prod.fst) :
    other ∉ (s.without caller).outcomes.map Prod.fst := by
  intro answered
  obtain ⟨outcome, member, same⟩ := List.mem_map.mp answered
  exact unanswered (List.mem_map.mpr ⟨outcome, (List.mem_filter.mp member).1, same⟩)

theorem State.Fresh.without {other : Nat} (fresh : s.Fresh other) (caller : Nat) :
    (s.without caller).Fresh other :=
  ⟨fresh.1, not_mem_outcomes_without caller fresh.2⟩

theorem State.Waits.without {other : Nat} (waits : s.Waits other) (caller : Nat) :
    (s.without caller).Waits other :=
  ⟨waits.1, not_mem_outcomes_without caller waits.2⟩

/-- A step is invisible without the caller, or is the same step there. -/
theorem Step.without (step : Step dispatcher s s') (caller : Nat) :
    s'.without caller = s.without caller ∨
      Step dispatcher (s.without caller) (s'.without caller) := by
  cases step with
  | arrive other call key batched fresh live =>
    refine .inr (.arrive (s := s.without caller) other call key batched (fresh.without caller) ?_)
    exact fun gone => live (List.mem_filter.mp gone).1
  | refuse other fresh gone =>
    by_cases same : other = caller
    · subst same
      exact .inl (without_answer_self s other _)
    · rw [without_answer_of_ne s _ same]
      exact .inr (.refuse other (fresh.without caller) (mem_fired_without same gone))
  | expire key running => exact .inr (.expire (s := s.without caller) key running)
  | reply place call reply sent inFlight answers =>
    exact .inr (.reply (s := s.without caller) place call reply sent inFlight answers)
  | fire other =>
    by_cases same : other = caller
    · subst same
      exact .inl (by simp [State.fire, State.without])
    · have kept : (s.fire other).without caller = (s.without caller).fire other := by
        simp [State.fire, State.without, same]
      rw [kept]
      exact .inr (.fire other)
  | giveUp other waits gone =>
    by_cases same : other = caller
    · subst same
      exact .inl (without_answer_self s other _)
    · rw [without_answer_of_ne s _ same]
      exact .inr (.giveUp other (waits.without caller) (mem_fired_without same gone))
  | receive other share waits shared =>
    by_cases same : other = caller
    · subst same
      exact .inl (without_answer_self s other _)
    · rw [without_answer_of_ne s _ same]
      exact .inr (.receive other share (waits.without caller) shared)

/-- **What a caller does who gives up is invisible to all others**: the same state is reached
without it. -/
theorem Reachable.without (reached : Reachable dispatcher s) (caller : Nat) :
    Reachable dispatcher (s.without caller) := by
  induction reached with
  | start => exact .start
  | step _ step ih =>
    rcases step.without caller with same | step
    · rw [same]
      exact ih
    · exact .step ih step

end

end FieldResolver.Batching

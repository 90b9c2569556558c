/-
**What batches keep account of.**

`Consistent` is what every step keeps (`Step.consistent`) and so holds in every reachable state:

* `places`: the members of calls and of open batches are the accepted requests, each once;
* `order`: the requests for one key are, in the order in which they came, the members of its calls
  one after another and then of its open batch;
* `windows`: the running windows are those of the open batches, one each.
-/

import FieldResolver.Proofs.Batching.OpenBatches
import FieldResolver.Proofs.Batching.Protocol

namespace FieldResolver.Batching

/-- What holds in every reachable state. -/
structure Consistent (dispatcher : Dispatcher) (s : State) : Prop where
  /-- No caller makes two requests. -/
  callers : (s.accepted.map fun request => request.2.caller).Nodup
  /-- Only requests that may wait for others join a batch. -/
  batched : ∀ request ∈ s.accepted, Batch.accepts request.2.request = true
  places : (s.calls.flatMap BatchCall.requests ++ s.batches.requests).Perm s.accepted
  order : ∀ key, s.calledFor key ++ s.batches.members key = s.acceptedFor key
  windows : s.timers = s.batches.map Prod.fst
  distinct : s.timers.Nodup
  /-- An open batch has a member. -/
  filled : ∀ batch ∈ s.batches, batch.2 ≠ []
  /-- A call has a member. -/
  sent : ∀ call ∈ s.calls, call.members ≠ []
  /-- A reply is one that the function can give. -/
  replied : ∀ call ∈ s.calls, ∀ reply, call.reply? = some reply → call.Answers dispatcher reply
  /-- Callers are answered with their shares, or with nothing after their tokens have fired. -/
  entitled : ∀ outcome ∈ s.outcomes,
    outcome.2 = .cancelled ∧ outcome.1 ∈ s.fired ∨ outcome ∈ s.shares

section

variable {dispatcher : Dispatcher} {s s' : State}

theorem consistent_start : Consistent dispatcher {} where
  callers := List.nodup_nil
  batched := fun _ member => absurd member List.not_mem_nil
  places := .refl _
  order := fun _ => rfl
  windows := rfl
  distinct := List.nodup_nil
  filled := fun _ member => absurd member List.not_mem_nil
  sent := fun _ member => absurd member List.not_mem_nil
  replied := fun _ member => absurd member List.not_mem_nil
  entitled := fun _ member => absurd member List.not_mem_nil

/-! ### Requests arrive -/

theorem acceptedFor_enqueue (s : State) (key other : BatchKey) (member : BatchMember) :
    (s.enqueue key member).acceptedFor other =
      s.acceptedFor other ++ if key = other then [member] else [] := by
  show ((s.accepted ++ [(key, member)]).filter fun request => request.1 = other).map Prod.snd = _
  rw [List.filter_append, List.map_append]
  by_cases same : key = other
  · simp [State.acceptedFor, same]
  · simp [State.acceptedFor, same]

theorem members_enqueue (s : State) (key other : BatchKey) (member : BatchMember) :
    (s.enqueue key member).batches.members other =
      s.batches.members other ++ if key = other then [member] else [] := by
  by_cases same : key = other
  · subst same
    rw [if_pos rfl]
    exact Batches.members_join s.batches key member
  · rw [if_neg same, List.append_nil]
    exact Batches.members_join_of_ne s.batches member (Ne.symm same)

theorem Consistent.enqueue (consistent : Consistent dispatcher s) {key : BatchKey}
    {member : BatchMember} (accepts : Batch.accepts member.request = true)
    (fresh : s.Fresh member.caller) : Consistent dispatcher (s.enqueue key member) where
  callers := by
    show ((s.accepted ++ [(key, member)]).map fun request => request.2.caller).Nodup
    rw [List.map_append]
    refine List.nodup_append.mpr ⟨consistent.callers, List.nodup_singleton _, ?_⟩
    rintro caller before _ (_ | _) rfl
    · exact fresh.1 before
    · contradiction
  batched := by
    intro request member
    rcases List.mem_append.mp member with before | last
    · exact consistent.batched request before
    · rw [List.mem_singleton.mp last]
      exact accepts
  places := by
    have joined := (Batches.requests_join s.batches key member).append_left
      (s.calls.flatMap BatchCall.requests)
    rw [← List.append_assoc] at joined
    exact joined.trans (consistent.places.append_right _)
  order := by
    intro other
    rw [acceptedFor_enqueue, members_enqueue, ← consistent.order other, List.append_assoc]
    rfl
  windows := by
    show (if s.batches.isOpen key then s.timers else s.timers ++ [key]) =
      (s.batches.join key member).map Prod.fst
    rw [Batches.keys_join, consistent.windows]
  distinct := by
    show (if s.batches.isOpen key then s.timers else s.timers ++ [key]).Nodup
    split
    · exact consistent.distinct
    · rename_i closed
      rw [Batches.isOpen_iff, ← consistent.windows] at closed
      exact List.nodup_append.mpr ⟨consistent.distinct, List.nodup_singleton _, by
        rintro other running _ (_ | _) rfl
        · exact closed running
        · contradiction⟩
  filled := Batches.filled_join key member consistent.filled
  sent := consistent.sent
  replied := consistent.replied
  entitled := consistent.entitled

/-! ### Windows expire -/

/-- A window that runs has an open batch with members. -/
theorem Consistent.members_ne_nil (consistent : Consistent dispatcher s) {key : BatchKey}
    (running : key ∈ s.timers) : s.batches.members key ≠ [] := by
  have distinct := consistent.distinct
  rw [consistent.windows] at running distinct
  obtain ⟨⟨k, list⟩, inTable, rfl⟩ := List.mem_map.mp running
  rw [Batches.members_of_mem list distinct inTable]
  exact consistent.filled _ inTable

/-- The calls after a window has expired. -/
theorem Consistent.calls_flush (consistent : Consistent dispatcher s) {key : BatchKey}
    (running : key ∈ s.timers) :
    (s.flush key).calls = s.calls ++ [{ key, members := s.batches.members key }] := by
  show (if (s.batches.members key).isEmpty then s.calls else _) = _
  rw [if_neg]
  rw [List.isEmpty_iff]
  exact consistent.members_ne_nil running

/-- A new call gives no shares yet. -/
theorem Consistent.shares_flush (consistent : Consistent dispatcher s) {key : BatchKey}
    (running : key ∈ s.timers) : (s.flush key).shares = s.shares := by
  rw [State.shares, consistent.calls_flush running, List.flatMap_append]
  exact List.append_nil _

theorem Consistent.calledFor_flush (consistent : Consistent dispatcher s) {key : BatchKey}
    (running : key ∈ s.timers) (other : BatchKey) :
    (s.flush key).calledFor other =
      s.calledFor other ++ if key = other then s.batches.members key else [] := by
  rw [State.calledFor, consistent.calls_flush running, List.flatMap_append, List.flatMap_singleton]
  rfl

theorem members_flush (s : State) (key other : BatchKey) :
    (s.flush key).batches.members other =
      if key = other then [] else s.batches.members other := by
  by_cases same : key = other
  · subst same
    rw [if_pos rfl]
    exact Batches.members_close s.batches key
  · rw [if_neg same]
    exact Batches.members_close_of_ne s.batches (Ne.symm same)

theorem Consistent.flush (consistent : Consistent dispatcher s) {key : BatchKey}
    (running : key ∈ s.timers) : Consistent dispatcher (s.flush key) where
  callers := consistent.callers
  batched := consistent.batched
  places := by
    have distinct : (s.batches.map Prod.fst).Nodup := consistent.windows ▸ consistent.distinct
    have closed := (Batches.requests_close s.batches key distinct).symm.append_left
      (s.calls.flatMap BatchCall.requests)
    rw [consistent.calls_flush running, List.flatMap_append, List.flatMap_singleton,
      List.append_assoc]
    exact closed.trans consistent.places
  order := by
    intro other
    have before := consistent.order other
    rw [consistent.calledFor_flush running, members_flush]
    by_cases same : key = other
    · subst same
      rw [if_pos rfl, if_pos rfl, List.append_nil]
      exact before
    · rw [if_neg same, if_neg same, List.append_nil]
      exact before
  windows := by
    have distinct : (s.batches.map Prod.fst).Nodup := consistent.windows ▸ consistent.distinct
    show s.timers.erase key = (s.batches.close key).map Prod.fst
    rw [Batches.keys_close s.batches key distinct, consistent.windows]
  distinct := consistent.distinct.erase key
  filled := fun batch kept => consistent.filled batch (Batches.mem_of_mem_close kept)
  sent := by
    intro call member
    rw [consistent.calls_flush running] at member
    rcases List.mem_append.mp member with before | last
    · exact consistent.sent call before
    · rw [List.mem_singleton.mp last]
      exact consistent.members_ne_nil running
  replied := by
    intro call member reply replied
    rw [consistent.calls_flush running] at member
    rcases List.mem_append.mp member with before | last
    · exact consistent.replied call before reply replied
    · rw [List.mem_singleton.mp last] at replied
      cases replied
  entitled := by
    rw [consistent.shares_flush running]
    exact consistent.entitled

/-! ### Calls are answered -/

/-- Replacing an item by one that contributes the same changes nothing. -/
theorem flatMap_set_of_eq {α β : Type} (f : α → List β) {list : List α} {place : Nat} {a b : α}
    (found : list[place]? = some a) (same : f b = f a) :
    (list.set place b).flatMap f = list.flatMap f := by
  induction list generalizing place with
  | nil => rfl
  | cons head rest ih =>
    cases place with
    | zero =>
      cases found
      rw [List.set_cons_zero, List.flatMap_cons, List.flatMap_cons, same]
    | succ place =>
      rw [List.set_cons_succ, List.flatMap_cons, List.flatMap_cons,
        ih (by rwa [List.getElem?_cons_succ] at found)]

/-- A call that has shares keeps its place when one without a reply is answered. -/
theorem mem_shares_settle {place : Nat} {call : BatchCall} {reply : Reply} {share : Nat × Reply}
    (sent : s.calls[place]? = some call) (inFlight : call.reply? = none)
    (shared : share ∈ s.shares) : share ∈ (s.settle place call reply).shares := by
  obtain ⟨answered, member, given⟩ := List.mem_flatMap.mp shared
  obtain ⟨other, found⟩ := List.mem_iff_getElem?.mp member
  have different : place ≠ other := by
    rintro rfl
    rw [found, Option.some_inj] at sent
    subst sent
    rw [BatchCall.shares, inFlight] at given
    cases given
  refine List.mem_flatMap.mpr ⟨answered, ?_, given⟩
  refine List.mem_iff_getElem?.mpr ⟨other, ?_⟩
  show (s.calls.set place _)[other]? = _
  rw [List.getElem?_set_ne different, found]

theorem Consistent.settle (consistent : Consistent dispatcher s) {place : Nat} {call : BatchCall}
    {reply : Reply} (sent : s.calls[place]? = some call) (inFlight : call.reply? = none)
    (answers : call.Answers dispatcher reply) :
    Consistent dispatcher (s.settle place call reply) where
  callers := consistent.callers
  batched := consistent.batched
  places := by
    have same := flatMap_set_of_eq (b := { call with reply? := some reply }) BatchCall.requests
      sent rfl
    show ((s.calls.set place _).flatMap BatchCall.requests ++ _).Perm _
    rw [same]
    exact consistent.places
  order := by
    intro key
    have same := flatMap_set_of_eq (b := { call with reply? := some reply })
      (fun call : BatchCall => if call.key = key then call.members else []) sent rfl
    show (s.calls.set place _).flatMap _ ++ s.batches.members key = s.acceptedFor key
    rw [same]
    exact consistent.order key
  windows := consistent.windows
  distinct := consistent.distinct
  filled := consistent.filled
  sent := by
    intro other member
    rcases List.mem_or_eq_of_mem_set member with before | rfl
    · exact consistent.sent other before
    · exact consistent.sent call (List.mem_iff_getElem?.mpr ⟨place, sent⟩)
  replied := by
    intro other member given replied
    rcases List.mem_or_eq_of_mem_set member with before | rfl
    · exact consistent.replied other before given replied
    · cases replied
      exact answers
  entitled := by
    intro outcome member
    exact (consistent.entitled outcome member).imp_right (mem_shares_settle sent inFlight)

/-! ### Callers are answered -/

theorem Consistent.answer (consistent : Consistent dispatcher s) {caller : Nat} {reply : Reply}
    (due : reply = .cancelled ∧ caller ∈ s.fired ∨ (caller, reply) ∈ s.shares) :
    Consistent dispatcher (s.answer caller reply) where
  __ := consistent
  entitled := by
    intro outcome member
    rcases List.mem_append.mp member with before | last
    · exact consistent.entitled outcome before
    · rw [List.mem_singleton.mp last]
      exact due

theorem Consistent.fire (consistent : Consistent dispatcher s) (caller : Nat) :
    Consistent dispatcher (s.fire caller) where
  __ := consistent
  entitled := by
    intro outcome member
    exact (consistent.entitled outcome member).imp_left
      (And.imp_right (List.mem_cons_of_mem caller))

/-- A request that joins a batch may wait for others. -/
theorem accepts_of_batchOf? {call : Call} {key : BatchKey}
    (batched : Timeline.batchOf? dispatcher call = some key) :
    Batch.accepts call.request = true := by
  unfold Timeline.batchOf? at batched
  split at batched
  · split at batched
    · rename_i both
      exact (Bool.and_eq_true_iff.mp both).1
    · cases batched
  · cases batched

/-- **Every step keeps the account.** -/
theorem Step.consistent (step : Step dispatcher s s') (consistent : Consistent dispatcher s) :
    Consistent dispatcher s' := by
  cases step with
  | arrive caller call key batched fresh live =>
    exact consistent.enqueue (accepts_of_batchOf? batched) fresh
  | refuse caller fresh gone => exact consistent.answer (.inl ⟨rfl, gone⟩)
  | expire key running => exact consistent.flush running
  | reply place call reply sent inFlight answers => exact consistent.settle sent inFlight answers
  | fire caller => exact consistent.fire caller
  | giveUp caller waits gone => exact consistent.answer (.inl ⟨rfl, gone⟩)
  | receive caller share waits shared => exact consistent.answer (.inr shared)

theorem Reachable.consistent (reached : Reachable dispatcher s) : Consistent dispatcher s := by
  induction reached with
  | start => exact consistent_start
  | step _ step ih => exact step.consistent ih

end

end FieldResolver.Batching

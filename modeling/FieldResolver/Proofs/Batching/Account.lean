/-
**The account of batching.**

What callers of functions can rely on, whatever the order in which requests arrive, windows expire,
functions answer and callers give up.

* `batching_account`: the account of a state that the protocol can reach;
* `Shared.account`: that of two requests that share a call, one of whose callers gives up.
-/

import FieldResolver.Proofs.Batching.Shares

namespace FieldResolver.Batching

/-- **The account of batching.** In every reachable state, an accepted request is at exactly one
place; an open batch has exactly one running window; a call is for requests of one key, in the order
in which they came, and carries their payloads; an answer with an item for each is shared out item
by item and any other fails for all in the same way; the state is also reached, with the same
batches, calls and other outcomes, without what a caller did who gave up; callers are told their
shares or that they were cancelled, and only those whose tokens have fired are told the latter. -/
theorem batching_account (dispatcher : Dispatcher) {s : State} (reached : Reachable dispatcher s) :
    (∀ request ∈ s.accepted, ∃! place, s.Holds request.2 place) ∧
    (∀ key, s.batches.members key ≠ [] → s.timers.count key = 1) ∧
    (∀ call ∈ s.calls, call.members ≠ [] ∧ call.members.Sublist (s.acceptedFor call.key) ∧
      Backend.payload (Batch.request call.members) =
        .array (call.members.map fun member => Batch.payload member.request)) ∧
    (∀ call ∈ s.calls, ∀ items, call.reply? = some (.value (.array items)) →
      items.length = call.members.length → ∀ (position : Nat) (member : BatchMember) item,
        call.members[position]? = some member → items[position]? = some item →
          ∀ share, (member.caller, share) ∈ s.shares ↔ share = .value item) ∧
    (∀ call ∈ s.calls, ∀ reply, call.reply? = some reply →
      (∀ items, reply = .value (.array items) → items.length ≠ call.members.length) →
        ∃ failure, ∀ member ∈ call.members, ∀ share,
          (member.caller, share) ∈ s.shares ↔ share = .failure failure) ∧
    (∀ caller, ∃ other, Reachable dispatcher other ∧ caller ∉ other.fired ∧
      other.batches = s.batches ∧ other.timers = s.timers ∧ other.calls = s.calls ∧
      other.accepted = s.accepted ∧
      other.outcomes = s.outcomes.filter fun outcome => outcome.1 ≠ caller) ∧
    (∀ caller reply, (caller, reply) ∈ s.outcomes →
      (caller, reply) ∈ s.shares ∨ reply = .cancelled ∧ caller ∈ s.fired) ∧
    (∀ caller, (caller, Reply.cancelled) ∈ s.outcomes → caller ∈ s.fired) := by
  have consistent := reached.consistent
  refine ⟨?_, ?_, ?_, ?_, ?_, ?_, ?_, ?_⟩
  · exact fun request accepted => consistent.existsUnique_place accepted
  · exact fun key filled => consistent.count_timers filled
  · exact fun call called => ⟨consistent.sent call called, consistent.members_sublist called,
      consistent.payload_call called⟩
  · exact fun call called items replied fits position member item here there =>
      consistent.shares_item called replied fits here there
  · exact fun call called reply replied misfit => consistent.shares_failure called replied misfit
  · exact fun caller => ⟨s.without caller, reached.without caller, not_mem_fired_without s caller,
      rfl, rfl, rfl, rfl, rfl⟩
  · exact fun caller reply told => (consistent.entitled _ told).symm
  · exact fun caller told => consistent.fired_of_cancelled told

/-! ### Two requests share a call -/

namespace Shared

/-- A function that answers with its event, and services that are never used. -/
def dispatcher : Dispatcher where
  sources := [{ name := "orders", config := .function "orders" (.registered "mirror") }]
  services :=
    { handlers := [("mirror", fun _ event => { content := .value event })]
      launcher := fun _ => .error "no processes here"
      transport := fun _ => .error "no network here"
      database :=
        { connect := fun _ => .error "no database here"
          run := fun _ _ => .error "no database here" } }

/-- The key of the requests. -/
def key : BatchKey := { source := "orders", field := "Customer.orders" }

/-- A request with a number. -/
def request (number : Int) : Json :=
  .object [("operation", .string "BatchInvoke"), ("payload", .int number)]

/-- The members of the call. -/
def members : List BatchMember := [⟨0, request 10⟩, ⟨1, request 11⟩]

/-- The call before it is answered. -/
def sent : BatchCall := { key, members }

/-- The answer of the function. -/
def answer : Reply := .value (.array [.int 10, .int 11])

/-- The state after two requests were sent in one call, the second caller gave up, the function
answered and the first caller took its share. -/
def state : State :=
  (((((((({} : State).enqueue key ⟨0, request 10⟩).enqueue key ⟨1, request 11⟩).fire 1).flush
    key).answer 1 .cancelled).settle 0 sent answer).answer 0 (.value (.int 10)))

/-- Both have their shares, and the one that gave up its own as well. -/
theorem shares_state : state.shares = [(0, .value (.int 10)), (1, .value (.int 11))] := rfl

theorem reachable : Reachable dispatcher state := by
  have arrives : ∀ number, Timeline.batchOf? dispatcher
      { source := "orders", field := some "Customer.orders", request := request number } =
        some key := fun _ => rfl
  have first := Reachable.start.step (.arrive 0 _ key (arrives 10) (by decide) (by decide))
  have second := first.step (.arrive 1 _ key (arrives 11) (by decide) (by decide))
  have fired := second.step (.fire 1)
  have flushed := fired.step (.expire key (by decide))
  have gone := flushed.step (.giveUp 1 (by decide) (by decide))
  have answered := gone.step (.reply 0 sent answer rfl rfl ⟨{}, rfl⟩)
  refine answered.step (.receive 0 (.value (.int 10)) (by decide) ?_)
  show (0, Reply.value (.int 10)) ∈ state.shares
  rw [shares_state]
  exact List.mem_cons_self

/-- The caller who stayed was told its share, and the one who gave up that it was cancelled. -/
theorem account :
    Reachable dispatcher state ∧ (1, Reply.cancelled) ∈ state.outcomes ∧ 1 ∈ state.fired ∧
      ∃ other, Reachable dispatcher other ∧ 1 ∉ other.fired ∧ other.calls = state.calls ∧
        other.outcomes = [(0, .value (.int 10))] := by
  obtain ⟨_, _, _, _, _, without, _, fired⟩ := batching_account dispatcher reachable
  have told : (1, Reply.cancelled) ∈ state.outcomes := List.mem_cons_self
  obtain ⟨other, reached, live, _, _, calls, _, outcomes⟩ := without 1
  exact ⟨reachable, told, fired 1 told, other, reached, live, calls, outcomes⟩

end Shared

end FieldResolver.Batching

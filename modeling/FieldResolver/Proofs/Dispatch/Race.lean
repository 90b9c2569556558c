/-
**Three instants race.**

A call has an instant at which the backend has answered, one at which its time is over, and perhaps
one at which its caller gives up. Whichever comes first decides what the caller is told; nothing is
said here about instants that are the same.

* `Race.Decides`: what the first of the three instants makes of a call, one reply only
  (`Decides.unique`);
* `Race.decides_of_first`: it is enough to compare the caller's instant with the earlier one of the
  other two;
* `invoke_decides`: a request that is sent and that nobody shares;
* `invoke_of_gone`: a caller who has given up already is told so, whatever the backend;
* `share_decides`: a member of a batch, with its share of what the call of the batch comes to.
-/

import FieldResolver.Dispatch.Batch

namespace FieldResolver

/-! ### What is first -/

/-- The instants of a call and what its caller is told at each. -/
structure Race where
  /-- When the backend has answered. -/
  answerAt : Nat
  /-- When the time for the call is over. -/
  timeoutAt : Nat
  /-- When the caller gives up; one who never does has no such instant. -/
  cancelAt : Option Nat
  answer : Reply
  timeout : Reply

namespace Race

/-- Whether a reply is what the first of the instants brings. -/
structure Decides (race : Race) (reply : Reply) : Prop where
  answered : race.answerAt < race.timeoutAt → (∀ c ∈ race.cancelAt, race.answerAt < c) →
    reply = race.answer
  timedOut : race.timeoutAt < race.answerAt → (∀ c ∈ race.cancelAt, race.timeoutAt < c) →
    reply = race.timeout
  cancelled : ∀ c ∈ race.cancelAt, c < race.answerAt → c < race.timeoutAt → reply = .cancelled

/-- **What the first instant brings is one reply** if no two instants are the same. -/
theorem Decides.unique {race : Race} {reply other : Reply}
    (distinct : race.answerAt ≠ race.timeoutAt)
    (apart : ∀ c ∈ race.cancelAt, c ≠ race.answerAt ∧ c ≠ race.timeoutAt)
    (decides : race.Decides reply) (again : race.Decides other) : reply = other := by
  by_cases gone : ∃ c ∈ race.cancelAt, c < race.answerAt ∧ c < race.timeoutAt
  · obtain ⟨c, is, first, second⟩ := gone
    rw [decides.cancelled c is first second, again.cancelled c is first second]
  · have stays : ∀ c ∈ race.cancelAt, min race.answerAt race.timeoutAt < c := by
      intro c is
      have := apart c is
      have : ¬ (c < race.answerAt ∧ c < race.timeoutAt) := fun before => gone ⟨c, is, before⟩
      omega
    rcases Nat.lt_or_gt_of_ne distinct with first | first
    · rw [Nat.min_eq_left (Nat.le_of_lt first)] at stays
      rw [decides.answered first stays, again.answered first stays]
    · rw [Nat.min_eq_right (Nat.le_of_lt first)] at stays
      rw [decides.timedOut first stays, again.timedOut first stays]

/-- **The caller's instant against the earlier one of the other two.** -/
theorem decides_of_first {race : Race} (told : Reply) {reply : Reply}
    (answer : race.answerAt ≤ race.timeoutAt → told = race.answer)
    (timeout : race.timeoutAt < race.answerAt → told = race.timeout)
    (gone : ∀ c ∈ race.cancelAt, c < min race.answerAt race.timeoutAt → reply = .cancelled)
    (stays : (∀ c ∈ race.cancelAt, min race.answerAt race.timeoutAt < c) → reply = told) :
    race.Decides reply where
  answered := by
    intro first before
    rw [Nat.min_eq_left (Nat.le_of_lt first)] at stays
    rw [stays before, answer (Nat.le_of_lt first)]
  timedOut := by
    intro first before
    rw [Nat.min_eq_right (Nat.le_of_lt first)] at stays
    rw [stays before, timeout first]
  cancelled := fun c is first second => gone c is (Nat.lt_min.mpr ⟨first, second⟩)

end Race

namespace Dispatcher

variable (dispatcher : Dispatcher) (source : DataSource)

/-- The race of a call of a data source that starts at an instant, for a caller whose share of the
answer is known. -/
def race (start : Nat) (cancelAt : Option Nat) (answer : Timed CallResult) (share : Reply) :
    Race where
  answerAt := start + answer.delay
  timeoutAt := start + dispatcher.timeoutOf source
  cancelAt := cancelAt
  answer := share
  timeout := .failure (timedOut source (dispatcher.timeoutOf source))

variable {dispatcher} {source}

/-- The reply to a call is there when the backend has answered or the time is over. -/
theorem race_min (start : Nat) (cancelAt : Option Nat) (answer : Timed CallResult)
    (share : Reply) :
    min (dispatcher.race source start cancelAt answer share).answerAt
        (dispatcher.race source start cancelAt answer share).timeoutAt =
      start + (settle source (dispatcher.timeoutOf source) answer).delay := by
  show min (start + answer.delay) (start + dispatcher.timeoutOf source) = _
  rw [settle_delay]
  omega

/-! ### Requests that are sent -/

/-- A request to a data source that has a backend. -/
theorem invoke_of_backed {name : String} {backend : Backend}
    (registered : dispatcher.sources.find? name = some source)
    (backed : dispatcher.backend? source.kind = some backend) (request : Json)
    {cancelAfter : Option Nat} (live : cancelAfter ≠ some 0) (state : ServiceState) :
    dispatcher.invoke name request cancelAfter state =
      let served := backend.serve dispatcher.services source (dispatcher.timeoutOf source) request
        state
      (withCancellation cancelAfter (settle source (dispatcher.timeoutOf source) served.1),
        served.2) := by
  unfold invoke
  simp only [registered, backed, if_neg live]

/-- **A caller who has given up already** is told so, whatever the backend. -/
theorem invoke_of_gone {name : String} {backend : Backend}
    (registered : dispatcher.sources.find? name = some source)
    (backed : dispatcher.backend? source.kind = some backend) (request : Json)
    (state : ServiceState) :
    dispatcher.invoke name request (some 0) state = ({ content := .cancelled }, state) := by
  unfold invoke
  simp only [registered, backed, if_pos]

/-- A cancellation at an instant, seen from the start of a call. -/
theorem withCancellation_decides (dispatcher : Dispatcher) (source : DataSource) (start : Nat)
    (cancelAt : Option Nat) (answer : Timed CallResult) (later : ∀ c ∈ cancelAt, start < c) :
    (dispatcher.race source start cancelAt answer (replyOf source answer.content)).Decides
      (withCancellation (cancelAt.map (· - start))
        (settle source (dispatcher.timeoutOf source) answer)).content := by
  refine Race.decides_of_first (settle source (dispatcher.timeoutOf source) answer).content ?_ ?_
    ?_ ?_
  · intro inTime
    rw [settle_of_le (Nat.le_of_add_le_add_left inTime)]
    rfl
  · intro late
    rw [settle_of_lt (Nat.lt_of_add_lt_add_left late)]
    rfl
  · intro c is first
    rw [race_min] at first
    have still := later c is
    cases (is : cancelAt = some c)
    rw [Option.map_some, withCancellation_of_lt (by omega)]
  · intro before
    rw [race_min] at before
    cases cancelAt with
    | none => rfl
    | some c =>
      have := before c rfl
      rw [Option.map_some, withCancellation_of_le (by omega)]

/-- **A request that is sent** is answered by what comes first, and the backend is called once. -/
theorem invoke_decides {name : String} {backend : Backend}
    (registered : dispatcher.sources.find? name = some source)
    (backed : dispatcher.backend? source.kind = some backend) (request : Json)
    {cancelAfter : Option Nat} (live : cancelAfter ≠ some 0) (state : ServiceState)
    {answer : Timed CallResult} {after : ServiceState}
    (serves : backend.serve dispatcher.services source (dispatcher.timeoutOf source) request state =
      (answer, after)) :
    (dispatcher.race source 0 cancelAfter answer (replyOf source answer.content)).Decides
        (dispatcher.invoke name request cancelAfter state).1.content ∧
      (dispatcher.invoke name request cancelAfter state).2 = after := by
  rw [invoke_of_backed registered backed request live state, serves]
  have later : ∀ c ∈ cancelAfter, 0 < c := by
    rintro c rfl
    exact Nat.pos_of_ne_zero fun zero => live (congrArg some zero)
  have same : cancelAfter.map (· - 0) = cancelAfter := by simp
  have decides := withCancellation_decides dispatcher source 0 cancelAfter answer later
  rw [same] at decides
  exact ⟨decides, rfl⟩

end Dispatcher

/-! ### Shares -/

namespace Batch

/-- A failure is shared by all members. -/
theorem shares_failure {source : String} {count place : Nat} {cause : CallFailure} {share : Reply}
    (here : (shares source count (.failure cause))[place]? = some share) :
    share = .failure cause := by
  have all : shares source count (.failure cause) = List.replicate count (.failure cause) := rfl
  rw [all] at here
  exact List.eq_of_mem_replicate (List.mem_of_getElem? here)

/-- Every member has a share. -/
theorem exists_share (source : String) {count place : Nat} (bound : place < count)
    (reply : Reply) : ∃ share, (shares source count reply)[place]? = some share := by
  rw [← length_shares source count reply] at bound
  exact ⟨_, List.getElem?_eq_getElem bound⟩

end Batch

/-- **A member's share of what the call of its batch comes to.** -/
theorem Dispatcher.share_decides {dispatcher : Dispatcher} {source : DataSource} {name : String}
    {count place start : Nat} {cancelAt : Option Nat} {answer : Timed CallResult}
    {share own reply : Reply}
    (shared : (Batch.shares name count (replyOf source answer.content))[place]? = some share)
    (owned : (Batch.shares name count
      (settle source (dispatcher.timeoutOf source) answer).content)[place]? = some own)
    (gone : ∀ c ∈ cancelAt, c < start + (settle source (dispatcher.timeoutOf source) answer).delay →
      reply = .cancelled)
    (stays : (∀ c ∈ cancelAt,
      start + (settle source (dispatcher.timeoutOf source) answer).delay < c) → reply = own) :
    (dispatcher.race source start cancelAt answer share).Decides reply := by
  refine Race.decides_of_first own ?_ ?_ ?_ ?_
  · intro inTime
    rw [settle_of_le (Nat.le_of_add_le_add_left inTime), shared] at owned
    exact (Option.some.inj owned).symm
  · intro late
    rw [settle_of_lt (Nat.lt_of_add_lt_add_left late)] at owned
    exact Batch.shares_failure owned
  · rwa [race_min]
  · rwa [race_min]

end FieldResolver

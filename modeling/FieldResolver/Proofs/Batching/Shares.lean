/-
**Who gets which share.**

Every accepted request has one place, so the members of a call keep their positions until its reply
is shared out by position, and nobody else's share is theirs.

* `payload_request`: a call carries the payloads of its members in the order in which they came;
* `Consistent.existsUnique_place`: a request is at exactly one place;
* `Consistent.shares_item`, `Consistent.shares_failure`: an answer that fits is shared out item by
  item, and any other fails for all members in the same way;
* `Consistent.fired_of_cancelled`: nobody is told to have been cancelled who was not.
-/

import FieldResolver.Proofs.Batching.Accounting

namespace FieldResolver

/-! ### What a call carries -/

namespace Batch

/-- A request that may wait for others is an invocation of a batch. -/
theorem fields_of_accepts {request : Json} (accepted : accepts request = true) :
    ∃ fields, request = .object fields ∧
      Dict.get? fields "operation" = some (.string "BatchInvoke") := by
  unfold accepts at accepted
  split at accepted
  · rename_i found
    cases request with
    | object fields => exact ⟨fields, rfl, found⟩
    | _ => cases found
  · cases accepted

/-- **The request of a batch carries the payloads of all members in order.** -/
theorem payload_request {members : List BatchMember} (nonempty : members ≠ [])
    (accepted : ∀ member ∈ members, accepts member.request = true) :
    Backend.payload (request members) =
      .array (members.map fun member => payload member.request) := by
  obtain ⟨first, rest, rfl⟩ := List.exists_cons_of_ne_nil nonempty
  obtain ⟨fields, shape, operation⟩ := fields_of_accepts (accepted first List.mem_cons_self)
  obtain ⟨caller, _⟩ := first
  subst shape
  let payloads := Json.array
    (({ caller, request := .object fields } :: rest : List BatchMember).map
      fun member => payload member.request)
  have kept : (Dict.insert fields "payload" payloads).get? "operation" =
      some (.string "BatchInvoke") := by
    rw [Dict.get?_insert_of_ne fields payloads (by decide), operation]
  have carried : (Dict.insert fields "payload" payloads).get? "payload" = some payloads :=
    Dict.get?_insert_self fields "payload" payloads
  show Backend.payload (.object (Dict.insert fields "payload" payloads)) = payloads
  simp only [Backend.payload, Json.field?, Json.object?, Option.bind_some, kept, carried]

/-- An answer that does not fit fails for all members in the same way. -/
theorem shares_of_misfit {source : String} {count : Nat} {reply : Reply}
    (replied : reply ≠ .cancelled)
    (misfit : ∀ items, reply = .value (.array items) → items.length ≠ count) :
    ∃ failure, shares source count reply = List.replicate count (.failure failure) := by
  cases reply with
  | cancelled => exact absurd rfl replied
  | failure cause => exact ⟨cause, rfl⟩
  | value answer =>
    cases answer with
    | array items => exact ⟨_, if_neg (misfit items rfl)⟩
    | _ => exact ⟨_, rfl⟩

end Batch

namespace Dispatcher

/-- A result never says that the request was cancelled. -/
theorem replyOf_ne_cancelled (source : DataSource) (result : CallResult) :
    replyOf source result ≠ .cancelled := by
  cases result <;> exact nofun

/-- **A request that nobody can cancel is never cancelled.** -/
theorem invoke_ne_cancelled (dispatcher : Dispatcher) (name : String) (request : Json)
    (services : ServiceState) :
    (dispatcher.invoke name request none services).1.content ≠ .cancelled := by
  unfold invoke
  split
  · exact nofun
  · split
    · exact nofun
    · rw [if_neg nofun]
      show (settle _ _ _).content ≠ _
      unfold settle
      split
      · exact replyOf_ne_cancelled _ _
      · exact nofun

end Dispatcher

namespace Batches

/-- The members of a batch are among the requests in the table. -/
theorem members_sublist (batches : Batches) (key : BatchKey) :
    ((batches.members key).map (key, ·)).Sublist batches.requests := by
  induction batches with
  | nil => exact .slnil
  | cons batch rest ih =>
    obtain ⟨k, list⟩ := batch
    rw [requests_cons, members]
    split
    · rename_i same
      subst same
      exact List.sublist_append_left _ _
    · exact ih.trans (List.sublist_append_right _ _)

end Batches

namespace Batching

section

variable {dispatcher : Dispatcher} {s : State}

/-! ### The place of a request -/

/-- Two positions with the same image of a list without repeated images are one. -/
theorem position_unique {α β : Type} {f : α → β} {list : List α} {i j : Nat} {a b : α}
    (distinct : (list.map f).Nodup) (first : list[i]? = some a) (second : list[j]? = some b)
    (same : f a = f b) : i = j := by
  refine (List.getElem?_inj (l := list.map f) ?_ distinct).mp ?_
  · rw [List.length_map]
    exact (List.getElem?_eq_some_iff.mp first).1
  · rw [List.getElem?_map, List.getElem?_map, first, second, Option.map_some, Option.map_some, same]

/-- No caller occurs twice among the members of calls and open batches. -/
theorem Consistent.callers_nodup (consistent : Consistent dispatcher s) :
    ((s.calls.flatMap BatchCall.requests ++ s.batches.requests).map
      fun request => request.2.caller).Nodup :=
  (consistent.places.map _).nodup_iff.mpr consistent.callers

theorem callers_eq (call : BatchCall) :
    call.requests.map (fun request => request.2.caller) = call.callers := by
  rw [BatchCall.requests, List.map_map]
  rfl

/-- No caller occurs in two calls or twice in one. -/
theorem Consistent.called_nodup (consistent : Consistent dispatcher s) :
    (s.calls.flatMap BatchCall.callers).Nodup := by
  have distinct := consistent.callers_nodup
  rw [List.map_append, List.map_flatMap] at distinct
  simp only [callers_eq] at distinct
  exact (List.nodup_append.mp distinct).1

/-- A caller is a member of one call at most. -/
theorem Consistent.call_unique (consistent : Consistent dispatcher s) {i j : Nat}
    {first second : BatchCall} {caller : Nat} (here : s.calls[i]? = some first)
    (there : s.calls[j]? = some second) (inFirst : caller ∈ first.callers)
    (inSecond : caller ∈ second.callers) : i = j := by
  have apart := (List.nodup_flatMap.mp consistent.called_nodup).2
  rw [List.pairwise_iff_getElem] at apart
  obtain ⟨iBound, rfl⟩ := List.getElem?_eq_some_iff.mp here
  obtain ⟨jBound, rfl⟩ := List.getElem?_eq_some_iff.mp there
  rcases Nat.lt_trichotomy i j with before | same | after
  · exact absurd inSecond (apart i j iBound jBound before inFirst)
  · exact same
  · exact absurd inFirst (apart j i jBound iBound after inSecond)

theorem Consistent.callers_nodup_of_mem (consistent : Consistent dispatcher s) {call : BatchCall}
    (member : call ∈ s.calls) : call.callers.Nodup :=
  (List.nodup_flatMap.mp consistent.called_nodup).1 call member

/-- A caller in an open batch is in no call. -/
theorem Consistent.not_called_of_waiting (consistent : Consistent dispatcher s) {key : BatchKey}
    {member : BatchMember} {call : BatchCall} (waits : member ∈ s.batches.members key)
    (called : call ∈ s.calls) : member.caller ∉ call.callers := by
  intro inCall
  have distinct := consistent.callers_nodup
  rw [List.map_append] at distinct
  have apart := (List.nodup_append.mp distinct).2.2
  have inTable := (s.batches.members_sublist key).subset (List.mem_map_of_mem waits)
  rw [← callers_eq] at inCall
  obtain ⟨request, inRequests, same⟩ := List.mem_map.mp inCall
  exact apart member.caller
    (List.mem_map.mpr ⟨request, List.mem_flatMap.mpr ⟨call, called, inRequests⟩, same⟩)
    member.caller (List.mem_map.mpr ⟨_, inTable, rfl⟩) rfl

/-- A caller is in one open batch at most, at one position. -/
theorem Consistent.waiting_unique (consistent : Consistent dispatcher s) {key other : BatchKey}
    {i j : Nat} {member : BatchMember} (here : (s.batches.members key)[i]? = some member)
    (there : (s.batches.members other)[j]? = some member) : key = other ∧ i = j := by
  have distinct := consistent.callers_nodup
  rw [List.map_append] at distinct
  have table := (List.nodup_append.mp distinct).2.1
  have inKey := (s.batches.members_sublist key).subset
    (List.mem_map_of_mem (List.mem_of_getElem? here))
  have inOther := (s.batches.members_sublist other).subset
    (List.mem_map_of_mem (List.mem_of_getElem? there))
  have same : (key, member) = (other, member) :=
    List.inj_on_of_nodup_map table inKey inOther rfl
  cases same
  refine ⟨rfl, position_unique (f := BatchMember.caller) ?_ here there rfl⟩
  have members := table.sublist ((s.batches.members_sublist key).map _)
  rwa [List.map_map] at members

/-- A member of calls is at one position of one call. -/
theorem Consistent.position_unique (consistent : Consistent dispatcher s) {i j p q : Nat}
    {first second : BatchCall} {member : BatchMember} (here : s.calls[i]? = some first)
    (there : s.calls[j]? = some second) (inFirst : first.members[p]? = some member)
    (inSecond : second.members[q]? = some member) : i = j ∧ first = second ∧ p = q := by
  have same : i = j := consistent.call_unique here there
    (List.mem_map_of_mem (List.mem_of_getElem? inFirst))
    (List.mem_map_of_mem (List.mem_of_getElem? inSecond))
  subst same
  cases here.symm.trans there
  have distinct := consistent.callers_nodup_of_mem (List.mem_of_getElem? here)
  exact ⟨rfl, rfl, Batching.position_unique distinct inFirst inSecond rfl⟩

theorem Consistent.place_unique (consistent : Consistent dispatcher s) {member : BatchMember}
    {place other : Place} (here : s.Holds member place) (there : s.Holds member other) :
    place = other := by
  have apart : ∀ key position call, (s.batches.members key)[position]? = some member →
      call ∈ s.calls → member ∉ call.members := fun key position call waits called inCall =>
    consistent.not_called_of_waiting (List.mem_of_getElem? waits) called
      (List.mem_map_of_mem inCall)
  cases place with
  | waiting key position =>
    cases other with
    | waiting _ _ =>
      obtain ⟨rfl, rfl⟩ := consistent.waiting_unique here there
      rfl
    | inFlight _ _ | answered _ _ =>
      obtain ⟨call, found, _, inCall⟩ := there
      exact absurd (List.mem_of_getElem? inCall)
        (apart _ _ call here (List.mem_of_getElem? found))
  | inFlight place position =>
    obtain ⟨call, found, unanswered, inCall⟩ := here
    cases other with
    | waiting _ _ =>
      exact absurd (List.mem_of_getElem? inCall)
        (apart _ _ call there (List.mem_of_getElem? found))
    | inFlight _ _ =>
      obtain ⟨_, found', _, inCall'⟩ := there
      obtain ⟨rfl, _, rfl⟩ := consistent.position_unique found found' inCall inCall'
      rfl
    | answered _ _ =>
      obtain ⟨_, found', closed, inCall'⟩ := there
      obtain ⟨_, rfl, _⟩ := consistent.position_unique found found' inCall inCall'
      exact absurd unanswered closed
  | answered place position =>
    obtain ⟨call, found, closed, inCall⟩ := here
    cases other with
    | waiting _ _ =>
      exact absurd (List.mem_of_getElem? inCall)
        (apart _ _ call there (List.mem_of_getElem? found))
    | inFlight _ _ =>
      obtain ⟨_, found', unanswered, inCall'⟩ := there
      obtain ⟨_, rfl, _⟩ := consistent.position_unique found found' inCall inCall'
      exact absurd unanswered closed
    | answered _ _ =>
      obtain ⟨_, found', _, inCall'⟩ := there
      obtain ⟨rfl, _, rfl⟩ := consistent.position_unique found found' inCall inCall'
      rfl

/-- The requests for a key that joined a batch are those that did so with the key. -/
theorem mem_acceptedFor {key : BatchKey} {member : BatchMember} :
    member ∈ s.acceptedFor key ↔ (key, member) ∈ s.accepted := by
  rw [State.acceptedFor, List.mem_map]
  constructor
  · rintro ⟨⟨k, _⟩, kept, rfl⟩
    rw [List.mem_filter, decide_eq_true_eq] at kept
    obtain ⟨accepted, rfl⟩ := kept
    exact accepted
  · exact fun accepted => ⟨_, List.mem_filter.mpr ⟨accepted, decide_eq_true rfl⟩, rfl⟩

/-- **A request that joined a batch is at exactly one place.** -/
theorem Consistent.existsUnique_place (consistent : Consistent dispatcher s)
    {request : BatchKey × BatchMember} (accepted : request ∈ s.accepted) :
    ∃! place, s.Holds request.2 place := by
  obtain ⟨key, member⟩ := request
  have somewhere : ∃ place, s.Holds member place := by
    have inOrder := mem_acceptedFor.mpr accepted
    rw [← consistent.order key, List.mem_append] at inOrder
    rcases inOrder with called | waits
    · obtain ⟨call, inCalls, inCall⟩ := List.mem_flatMap.mp called
      have inMembers : member ∈ call.members := by
        split at inCall
        · exact inCall
        · cases inCall
      obtain ⟨place, found⟩ := List.mem_iff_getElem?.mp inCalls
      obtain ⟨position, here⟩ := List.mem_iff_getElem?.mp inMembers
      by_cases unanswered : call.reply? = none
      · exact ⟨.inFlight place position, call, found, unanswered, here⟩
      · exact ⟨.answered place position, call, found, unanswered, here⟩
    · obtain ⟨position, here⟩ := List.mem_iff_getElem?.mp waits
      exact ⟨.waiting key position, here⟩
  obtain ⟨place, holds⟩ := somewhere
  exact ⟨place, holds, fun other there => consistent.place_unique there holds⟩

/-- The members of a call came in this order, all with its key. -/
theorem Consistent.members_sublist (consistent : Consistent dispatcher s) {call : BatchCall}
    (called : call ∈ s.calls) : call.members.Sublist (s.acceptedFor call.key) := by
  rw [← consistent.order call.key]
  refine List.Sublist.trans ?_ (List.sublist_append_left _ _)
  rw [State.calledFor, List.flatMap_def]
  refine List.sublist_flatten_of_mem (List.mem_map.mpr ⟨call, called, ?_⟩)
  exact if_pos rfl

/-- A call carries its members' payloads. -/
theorem Consistent.payload_call (consistent : Consistent dispatcher s) {call : BatchCall}
    (called : call ∈ s.calls) :
    Backend.payload (Batch.request call.members) =
      .array (call.members.map fun member => Batch.payload member.request) := by
  refine Batch.payload_request (consistent.sent call called) fun member inCall => ?_
  have came := (consistent.members_sublist called).subset inCall
  exact consistent.batched _ (mem_acceptedFor.mp came)

/-! ### The shares -/

theorem BatchCall.length_callers (call : BatchCall) : call.callers.length = call.members.length :=
  List.length_map _

/-- The shares of a call are for its members. -/
theorem BatchCall.callers_sharesOf (call : BatchCall) (reply : Reply) :
    (call.sharesOf reply).map Prod.fst = call.callers := by
  refine List.map_fst_zip (Nat.le_of_eq ?_)
  rw [Batch.length_shares, call.length_callers]

theorem BatchCall.callers_shares (call : BatchCall) :
    (call.shares.map Prod.fst).Sublist call.callers := by
  unfold BatchCall.shares
  split
  · exact List.nil_sublist _
  · rw [call.callers_sharesOf]

/-- Nobody has two shares. -/
theorem Consistent.shares_nodup (consistent : Consistent dispatcher s) :
    (s.shares.map Prod.fst).Nodup := by
  rw [State.shares, List.map_flatMap]
  refine consistent.called_nodup.sublist ?_
  generalize s.calls = calls
  induction calls with
  | nil => exact .slnil
  | cons call rest ih =>
    rw [List.flatMap_cons, List.flatMap_cons]
    exact call.callers_shares.append ih

/-- The member at a position has the share at that position, and no other. -/
theorem Consistent.mem_shares_iff (consistent : Consistent dispatcher s) {call : BatchCall}
    {reply : Reply} (called : call ∈ s.calls) (replied : call.reply? = some reply) {position : Nat}
    {member : BatchMember} {own : Reply} (here : call.members[position]? = some member)
    (there : (Batch.shares call.key.source call.members.length reply)[position]? = some own)
    (share : Reply) : (member.caller, share) ∈ s.shares ↔ share = own := by
  have given : (member.caller, own) ∈ s.shares := by
    refine List.mem_flatMap.mpr ⟨call, called, ?_⟩
    rw [BatchCall.shares, replied]
    refine List.mem_iff_getElem?.mpr ⟨position, List.getElem?_zip_eq_some.mpr ⟨?_, there⟩⟩
    show (call.members.map BatchMember.caller)[position]? = some member.caller
    rw [List.getElem?_map, here]
    rfl
  constructor
  · intro shared
    have same := List.inj_on_of_nodup_map consistent.shares_nodup shared given rfl
    exact (Prod.mk.inj same).2
  · rintro rfl
    exact given

/-- **An answer that fits is shared out item by item.** -/
theorem Consistent.shares_item (consistent : Consistent dispatcher s) {call : BatchCall}
    {items : List Json} (called : call ∈ s.calls)
    (replied : call.reply? = some (.value (.array items)))
    (fits : items.length = call.members.length) {position : Nat} {member : BatchMember}
    {item : Json} (here : call.members[position]? = some member)
    (there : items[position]? = some item) (share : Reply) :
    (member.caller, share) ∈ s.shares ↔ share = .value item := by
  refine consistent.mem_shares_iff called replied here ?_ share
  rw [Batch.shares_of_length_eq fits, List.getElem?_map, there]
  rfl

/-- **Any other answer fails for all members in the same way.** -/
theorem Consistent.shares_failure (consistent : Consistent dispatcher s) {call : BatchCall}
    {reply : Reply} (called : call ∈ s.calls) (replied : call.reply? = some reply)
    (misfit : ∀ items, reply = .value (.array items) → items.length ≠ call.members.length) :
    ∃ failure, ∀ member ∈ call.members, ∀ share,
      (member.caller, share) ∈ s.shares ↔ share = .failure failure := by
  obtain ⟨services, answer⟩ := consistent.replied call called reply replied
  have notCancelled : reply ≠ .cancelled :=
    answer ▸ Dispatcher.invoke_ne_cancelled dispatcher _ _ services
  obtain ⟨failure, same⟩ := @Batch.shares_of_misfit call.key.source _ _ notCancelled misfit
  refine ⟨failure, fun member inCall share => ?_⟩
  obtain ⟨position, here⟩ := List.mem_iff_getElem?.mp inCall
  refine consistent.mem_shares_iff called replied here ?_ share
  have bound := (List.getElem?_eq_some_iff.mp here).1
  rw [same, List.getElem?_replicate, if_pos bound]

/-- A share never says that the request was cancelled. -/
theorem Consistent.share_ne_cancelled (consistent : Consistent dispatcher s) {caller : Nat} :
    (caller, Reply.cancelled) ∉ s.shares := by
  intro shared
  obtain ⟨call, called, given⟩ := List.mem_flatMap.mp shared
  cases replied : call.reply? with
  | none =>
    rw [BatchCall.shares, replied] at given
    cases given
  | some reply =>
    have inCallers : caller ∈ call.callers :=
      call.callers_shares.subset (List.mem_map_of_mem given)
    obtain ⟨member, inCall, rfl⟩ := List.mem_map.mp inCallers
    by_cases fits : ∃ items, reply = .value (.array items) ∧ items.length = call.members.length
    · obtain ⟨items, rfl, fits⟩ := fits
      obtain ⟨position, here⟩ := List.mem_iff_getElem?.mp inCall
      have bound := (List.getElem?_eq_some_iff.mp here).1
      rw [← fits] at bound
      have item := List.getElem?_eq_getElem bound
      cases (consistent.shares_item called replied fits here item _).mp shared
    · obtain ⟨failure, only⟩ := consistent.shares_failure called replied
        fun items same length => fits ⟨items, same, length⟩
      cases (only member inCall _).mp shared

/-- **Only callers whose tokens have fired are told that they were cancelled.** -/
theorem Consistent.fired_of_cancelled (consistent : Consistent dispatcher s) {caller : Nat}
    (told : (caller, Reply.cancelled) ∈ s.outcomes) : caller ∈ s.fired := by
  rcases consistent.entitled _ told with ⟨_, gone⟩ | shared
  · exact gone
  · exact absurd shared consistent.share_ne_cancelled

/-- A running window belongs to one open batch, and each open batch has one. -/
theorem Consistent.count_timers (consistent : Consistent dispatcher s) {key : BatchKey}
    (filled : s.batches.members key ≠ []) : s.timers.count key = 1 := by
  refine List.count_eq_one_of_mem consistent.distinct ?_
  rw [consistent.windows]
  by_contra absent
  exact filled (Batches.members_of_not_mem absent)

end

end Batching

end FieldResolver

/-
**The timeline runs the protocol.**

A timeline is one way in which the protocol can go on: its agenda holds the windows that run and the
calls in flight, and its tickets are the callers. `Follows` relates the two.

* `start_follows`: a program that runs until it waits takes at most one step, the arrival of its
  request;
* `step_follows`: an entry of the agenda is a sequence of steps;
* `Timeline.Reached.follows`: a timeline that comes from programs being started and entries being
  taken is always in a state that the protocol can reach.
-/

import FieldResolver.Proofs.Batching.Shares
import FieldResolver.Resolution.Session
import Mathlib.Algebra.GroupWithZero.Nat

namespace FieldResolver

open Batching

/-! ### The agenda -/

/-- The batch that an occasion closes. -/
def Occasion.closes? : Occasion → Option BatchKey
  | .close key => some key
  | _ => none

/-- The call that an occasion answers: its key, its tickets and the reply. -/
def Occasion.call? : Occasion → Option (BatchKey × List Nat × Reply)
  | .share key tickets content => some (key, tickets, content)
  | _ => none

namespace Timeline

section

variable {α : Type}

/-- The batches whose windows run. -/
def closing (timeline : Timeline α) : List BatchKey :=
  timeline.agenda.filterMap fun entry => entry.2.closes?

/-- The calls in flight. -/
def sharing (timeline : Timeline α) : List (BatchKey × List Nat × Reply) :=
  timeline.agenda.filterMap fun entry => entry.2.call?

/-- A new entry of the agenda comes in among the others. -/
theorem insertEntry_perm (time : Nat) (occasion : Occasion) (agenda : List (Nat × Occasion)) :
    (insertEntry time occasion agenda).Perm ((time, occasion) :: agenda) := by
  induction agenda with
  | nil => exact .refl _
  | cons entry rest ih =>
    obtain ⟨other, occupied⟩ := entry
    rw [insertEntry]
    split
    · exact (ih.cons _).trans (.swap _ _ _)
    · exact .refl _

theorem closing_plan (timeline : Timeline α) (delay : Nat) (occasion : Occasion) :
    (timeline.plan delay occasion).closing.Perm (occasion.closes?.toList ++ timeline.closing) := by
  refine ((insertEntry_perm _ _ _).filterMap _).trans (.of_eq ?_)
  rw [List.filterMap_cons]
  cases occasion.closes? <;> rfl

theorem sharing_plan (timeline : Timeline α) (delay : Nat) (occasion : Occasion) :
    (timeline.plan delay occasion).sharing.Perm (occasion.call?.toList ++ timeline.sharing) := by
  refine ((insertEntry_perm _ _ _).filterMap _).trans (.of_eq ?_)
  rw [List.filterMap_cons]
  cases occasion.call? <;> rfl

theorem mem_agenda_plan {timeline : Timeline α} {delay : Nat} {occasion : Occasion}
    {entry : Nat × Occasion} (member : entry ∈ (timeline.plan delay occasion).agenda) :
    entry.2 = occasion ∨ entry ∈ timeline.agenda := by
  rcases List.mem_cons.mp ((insertEntry_perm _ _ _).subset member) with here | before
  · exact .inl (by rw [here])
  · exact .inr before

/-! ### Requests that join a batch -/

/-- A timeline on which a request is in its batch and its caller waits. -/
def enlist (timeline : Timeline α) (task : Nat) (cancelAt : Option Nat) (key : BatchKey)
    (request : Json) (next : Reply → Program α) : Timeline α :=
  { timeline.wait task cancelAt next with
    batches := timeline.batches.join key { caller := timeline.tickets, request } }

/-- A timeline with the window of a batch, which is planned if the batch was not open before. -/
def withWindow (dispatcher : Dispatcher) (key : BatchKey) (opened : Bool) (timeline : Timeline α) :
    Timeline α :=
  if opened then timeline.plan dispatcher.batchWindowMs (.close key) else timeline

/-- A request joins its batch, with the window and then with its own cancellation. -/
theorem joinBatch_eq (dispatcher : Dispatcher) (timeline : Timeline α) (task : Nat)
    (cancelAt : Option Nat) (key : BatchKey) (request : Json) (next : Reply → Program α) :
    timeline.joinBatch dispatcher task cancelAt key request next =
      let joined := (timeline.enlist task cancelAt key request next).withWindow dispatcher key
        (!timeline.batches.isOpen key)
      match joined.untilTime cancelAt with
      | some delay => joined.plan delay (.reply timeline.tickets .cancelled)
      | none => joined := rfl

end

end Timeline

namespace Batching

/-- Whether a call has no reply yet. -/
def BatchCall.unanswered (call : BatchCall) : Bool := call.reply?.isNone

/-- Whether a planned reply belongs to a call. -/
def Planned (dispatcher : Dispatcher) (entry : BatchKey × List Nat × Reply) (call : BatchCall) :
    Prop :=
  entry.1 = call.key ∧ entry.2.1 = call.callers ∧ call.Answers dispatcher entry.2.2

/-- Whether the planned replies are those of the calls in flight, one each. -/
def Matched (dispatcher : Dispatcher) (planned : List (BatchKey × List Nat × Reply))
    (calls : List BatchCall) : Prop :=
  ∃ pairs : List ((BatchKey × List Nat × Reply) × BatchCall),
    (pairs.map Prod.fst).Perm planned ∧
      (pairs.map Prod.snd).Perm (calls.filter BatchCall.unanswered) ∧
      ∀ pair ∈ pairs, Planned dispatcher pair.1 pair.2

/-- Whether a timeline is in a state of the protocol. -/
structure Follows {α : Type} (dispatcher : Dispatcher) (timeline : Timeline α) (s : State) :
    Prop where
  batches : timeline.batches = s.batches
  timers : timeline.closing.Perm s.timers
  flights : Matched dispatcher timeline.sharing s.calls
  /-- Tickets are new. -/
  accepted : ∀ request ∈ s.accepted, request.2.caller < timeline.tickets
  outcomes : ∀ outcome ∈ s.outcomes, outcome.1 < timeline.tickets
  fired : ∀ caller ∈ s.fired, caller < timeline.tickets
  /-- Members of batches get no reply of their own except that they were cancelled. -/
  own : ∀ entry ∈ timeline.agenda, ∀ ticket content, entry.2 = .reply ticket content →
    ticket < timeline.tickets ∧
      (ticket ∈ s.accepted.map (fun request => request.2.caller) → content = .cancelled)
  /-- Whoever waits was not answered. -/
  waiting : ∀ waiting ∈ timeline.waiting,
    waiting.ticket < timeline.tickets ∧ waiting.ticket ∉ s.outcomes.map Prod.fst

section

variable {α : Type} {dispatcher : Dispatcher} {timeline : Timeline α} {s : State}

/-! ### Calls in flight -/

theorem Matched.of_perm {planned other : List (BatchKey × List Nat × Reply)}
    {calls : List BatchCall} (matched : Matched dispatcher planned calls)
    (same : other.Perm planned) : Matched dispatcher other calls := by
  obtain ⟨pairs, left, right, fit⟩ := matched
  exact ⟨pairs, left.trans same.symm, right, fit⟩

/-- A call is sent and its reply planned. -/
theorem Matched.cons {planned : List (BatchKey × List Nat × Reply)} {calls : List BatchCall}
    {entry : BatchKey × List Nat × Reply} {call : BatchCall}
    (matched : Matched dispatcher planned calls) (fits : Planned dispatcher entry call)
    (unanswered : call.reply? = none) :
    Matched dispatcher (entry :: planned) (calls ++ [call]) := by
  obtain ⟨pairs, left, right, fit⟩ := matched
  refine ⟨(entry, call) :: pairs, left.cons entry, ?_, List.forall_mem_cons.mpr ⟨fits, fit⟩⟩
  have kept : [call].filter BatchCall.unanswered = [call] := by
    simp [BatchCall.unanswered, unanswered]
  rw [List.filter_append, kept]
  exact (right.cons call).trans (List.perm_append_singleton call _).symm

/-- A call is sent and answered at once. -/
theorem Matched.append_answered {planned : List (BatchKey × List Nat × Reply)}
    {calls : List BatchCall} {call : BatchCall} (matched : Matched dispatcher planned calls)
    (answered : call.reply?.isSome) : Matched dispatcher planned (calls ++ [call]) := by
  obtain ⟨pairs, left, right, fit⟩ := matched
  refine ⟨pairs, left, ?_, fit⟩
  have dropped : [call].filter BatchCall.unanswered = [] := by
    simp [BatchCall.unanswered, Option.isSome_iff_ne_none.mp answered]
  rwa [List.filter_append, dropped, List.append_nil]

/-- Answering a call takes it out of the calls in flight. -/
theorem filter_set_perm {calls : List BatchCall} {place : Nat} {call answered : BatchCall}
    (found : calls[place]? = some call) (before : call.unanswered = true)
    (after : answered.unanswered = false) :
    (calls.filter BatchCall.unanswered).Perm
      (call :: (calls.set place answered).filter BatchCall.unanswered) := by
  induction calls generalizing place with
  | nil => cases found
  | cons head rest ih =>
    cases place with
    | zero =>
      cases found
      rw [List.set_cons_zero, List.filter_cons_of_pos before,
        List.filter_cons_of_neg (by simp [after])]
    | succ place =>
      rw [List.getElem?_cons_succ] at found
      rw [List.set_cons_succ, List.filter_cons, List.filter_cons]
      split
      · exact ((ih found).cons head).trans (.swap _ _ _)
      · exact ih found

/-- The call of a planned reply, without which the others are still matched. -/
theorem Matched.uncons {planned : List (BatchKey × List Nat × Reply)} {calls : List BatchCall}
    {entry : BatchKey × List Nat × Reply} (matched : Matched dispatcher (entry :: planned) calls) :
    ∃ place call, calls[place]? = some call ∧ call.reply? = none ∧
      Planned dispatcher entry call ∧ ∀ reply,
        Matched dispatcher planned (calls.set place { call with reply? := some reply }) := by
  obtain ⟨pairs, left, right, fit⟩ := matched
  obtain ⟨⟨first, call⟩, member, rfl⟩ := List.mem_map.mp (left.symm.subset List.mem_cons_self)
  obtain ⟨front, back, rfl⟩ := List.append_of_mem member
  have unpaired : (front ++ (first, call) :: back).Perm ((first, call) :: (front ++ back)) :=
    List.perm_middle
  have inFlight : call ∈ calls.filter BatchCall.unanswered :=
    right.subset (List.mem_map_of_mem member)
  obtain ⟨inCalls, unanswered⟩ := List.mem_filter.mp inFlight
  obtain ⟨place, found⟩ := List.mem_iff_getElem?.mp inCalls
  refine ⟨place, call, found, Option.isNone_iff_eq_none.mp unanswered, fit _ member, ?_⟩
  intro reply
  refine ⟨front ++ back, ?_, ?_, fun pair other => fit pair (unpaired.symm.subset
    (List.mem_cons_of_mem _ other))⟩
  · exact ((unpaired.map Prod.fst).symm.trans left).cons_inv
  · have settled : (calls.filter BatchCall.unanswered).Perm (call ::
        (calls.set place { call with reply? := some reply }).filter BatchCall.unanswered) :=
      filter_set_perm found unanswered rfl
    exact ((unpaired.map Prod.snd).symm.trans (right.trans settled)).cons_inv

theorem follows_start (evaluator : Template.Evaluator) (services : ServiceState) :
    Follows dispatcher ({ evaluator, services } : Timeline α) {} where
  batches := rfl
  timers := .refl _
  flights := ⟨[], .refl _, .refl _, fun _ member => absurd member List.not_mem_nil⟩
  accepted := fun _ member => absurd member List.not_mem_nil
  outcomes := fun _ member => absurd member List.not_mem_nil
  fired := fun _ member => absurd member List.not_mem_nil
  own := fun _ member => absurd member List.not_mem_nil
  waiting := fun _ member => absurd member List.not_mem_nil

/-! ### Waiting and planning -/

/-- A program that waits under a new ticket changes nothing for the protocol. -/
theorem Follows.wait (follows : Follows dispatcher timeline s) (task : Nat)
    (cancelAt : Option Nat) (next : Reply → Program α) :
    Follows dispatcher (timeline.wait task cancelAt next) s where
  batches := follows.batches
  timers := follows.timers
  flights := follows.flights
  accepted := fun request member => Nat.lt_succ_of_lt (follows.accepted request member)
  outcomes := fun outcome member => Nat.lt_succ_of_lt (follows.outcomes outcome member)
  fired := fun caller member => Nat.lt_succ_of_lt (follows.fired caller member)
  own := fun entry member ticket content same =>
    (follows.own entry member ticket content same).imp_left Nat.lt_succ_of_lt
  waiting := by
    intro waiting member
    rcases List.mem_append.mp member with before | last
    · exact (follows.waiting waiting before).imp_left Nat.lt_succ_of_lt
    · rw [List.mem_singleton.mp last]
      refine ⟨Nat.lt_succ_self _, fun answered => ?_⟩
      obtain ⟨outcome, inOutcomes, same⟩ := List.mem_map.mp answered
      exact absurd same (Nat.ne_of_lt (follows.outcomes outcome inOutcomes))

/-- A reply of its own can be planned for a caller who is in no batch, or that it was cancelled. -/
theorem Follows.plan_reply (follows : Follows dispatcher timeline s) (delay : Nat) {ticket : Nat}
    {content : Reply} (known : ticket < timeline.tickets)
    (apart : ticket ∈ s.accepted.map (fun request => request.2.caller) → content = .cancelled) :
    Follows dispatcher (timeline.plan delay (.reply ticket content)) s where
  batches := follows.batches
  timers := (timeline.closing_plan delay _).trans follows.timers
  flights := follows.flights.of_perm (timeline.sharing_plan delay _)
  accepted := follows.accepted
  outcomes := follows.outcomes
  fired := follows.fired
  own := by
    intro entry member other reply same
    rcases Timeline.mem_agenda_plan member with planned | before
    · cases planned.symm.trans same
      exact ⟨known, apart⟩
    · exact follows.own entry before other reply same
  waiting := follows.waiting

/-- Nobody in a batch has a ticket that was not given out yet. -/
theorem Follows.not_accepted (follows : Follows dispatcher timeline s) {ticket : Nat}
    (new : timeline.tickets ≤ ticket) :
    ticket ∉ s.accepted.map (fun request => request.2.caller) := by
  intro accepted
  obtain ⟨request, member, same⟩ := List.mem_map.mp accepted
  exact absurd (same ▸ follows.accepted request member) (Nat.not_lt.mpr new)

theorem Follows.fresh (follows : Follows dispatcher timeline s) : s.Fresh timeline.tickets := by
  refine ⟨follows.not_accepted (Nat.le_refl _), fun answered => ?_⟩
  obtain ⟨outcome, member, same⟩ := List.mem_map.mp answered
  exact absurd same (Nat.ne_of_lt (follows.outcomes outcome member))

/-- A request is in its batch and its caller waits, while the window is not planned yet. -/
theorem Follows.enlist (follows : Follows dispatcher timeline s) (task : Nat)
    (cancelAt : Option Nat) (key : BatchKey) (request : Json) (next : Reply → Program α) :
    Follows dispatcher (timeline.enlist task cancelAt key request next)
      { s.enqueue key { caller := timeline.tickets, request } with timers := s.timers } := by
  have waits := follows.wait task cancelAt next
  refine
    { batches := ?_
      timers := follows.timers
      flights := follows.flights
      accepted := ?_
      outcomes := waits.outcomes
      fired := waits.fired
      own := ?_
      waiting := waits.waiting }
  · show timeline.batches.join key _ = s.batches.join key _
    rw [follows.batches]
  · intro other member
    rcases List.mem_append.mp member with before | last
    · exact waits.accepted other before
    · rw [List.mem_singleton.mp last]
      exact Nat.lt_succ_self _
  · intro entry member ticket content same
    have old := follows.own entry member ticket content same
    refine ⟨Nat.lt_succ_of_lt old.1, fun accepted => ?_⟩
    obtain ⟨other, inAccepted, here⟩ := List.mem_map.mp accepted
    rcases List.mem_append.mp inAccepted with before | last
    · exact old.2 (List.mem_map.mpr ⟨other, before, here⟩)
    · rw [List.mem_singleton.mp last] at here
      exact absurd here (Nat.ne_of_gt old.1)

/-- The window of a batch is planned. -/
theorem Follows.plan_close (follows : Follows dispatcher timeline s) (delay : Nat) (key : BatchKey) :
    Follows dispatcher (timeline.plan delay (.close key)) { s with timers := s.timers ++ [key] } :=
  { follows with
    timers := by
      refine (timeline.closing_plan delay _).trans ?_
      exact (follows.timers.append_left [key]).trans List.perm_append_comm
    flights := follows.flights.of_perm (timeline.sharing_plan delay _)
    own := by
      intro entry member ticket content same
      rcases Timeline.mem_agenda_plan member with planned | before
      · cases planned.symm.trans same
      · exact follows.own entry before ticket content same }

/-- A request joins its batch, and its caller waits. -/
theorem Follows.enqueue (follows : Follows dispatcher timeline s) {task : Nat}
    {cancelAt : Option Nat} {key : BatchKey} {request : Json} {next : Reply → Program α} :
    Follows dispatcher (timeline.joinBatch dispatcher task cancelAt key request next)
      (s.enqueue key { caller := timeline.tickets, request }) := by
  have listed := follows.enlist task cancelAt key request next
  -- The window first: without the caller's own reply.
  have joined : Follows dispatcher ((timeline.enlist task cancelAt key request next).withWindow
      dispatcher key (!timeline.batches.isOpen key))
      (s.enqueue key { caller := timeline.tickets, request }) := by
    unfold Timeline.withWindow
    rw [follows.batches]
    cases isOpen : s.batches.isOpen key with
    | true =>
      have timers : (s.enqueue key { caller := timeline.tickets, request }).timers = s.timers :=
        if_pos isOpen
      rw [← timers] at listed
      exact listed
    | false =>
      have timers : (s.enqueue key { caller := timeline.tickets, request }).timers =
          s.timers ++ [key] := if_neg (by rw [isOpen]; exact Bool.false_ne_true)
      have planned := listed.plan_close dispatcher.batchWindowMs key
      rw [← timers] at planned
      exact planned
  have known : timeline.tickets < ((timeline.enlist task cancelAt key request next).withWindow
      dispatcher key (!timeline.batches.isOpen key)).tickets := by
    unfold Timeline.withWindow
    split <;> exact Nat.lt_succ_self _
  rw [Timeline.joinBatch_eq]
  simp only
  split
  · exact joined.plan_reply _ known fun _ => rfl
  · exact joined

/-! ### Programs run -/

/-- **A program that runs until it waits** takes at most one step: its request joins a batch. -/
theorem start_follows (surroundings : Template.Surroundings) (task : Nat) (cancelAt : Option Nat)
    (program : Program α) {timeline : Timeline α} {s : State}
    (follows : Follows dispatcher timeline s) (reached : Reachable dispatcher s) :
    ∃ s', Reachable dispatcher s' ∧ s'.calls = s.calls ∧
      Follows dispatcher
        (Timeline.start dispatcher surroundings task cancelAt program timeline) s' := by
  induction program generalizing timeline with
  | done result => exact ⟨s, reached, rfl, { follows with }⟩
  | isCancelled next ih => exact ih _ follows
  | evaluate source context next ih => exact ih _ _ { follows with }
  | call call next ih =>
    rw [Timeline.start]
    split
    · rename_i key batched
      split
      · exact ih _ follows
      · have live : timeline.tickets ∉ s.fired := fun gone =>
          absurd (follows.fired _ gone) (Nat.lt_irrefl _)
        exact ⟨_, .step reached (.arrive timeline.tickets call key batched follows.fresh live), rfl,
          follows.enqueue⟩
    · simp only
      split
      · exact ih _ { follows with }
      · refine ⟨s, reached, rfl, ?_⟩
        have later : Follows dispatcher
            { timeline with
              services := (dispatcher.invoke call.source call.request (timeline.untilTime cancelAt)
                timeline.services).2 } s := { follows with }
        refine (later.wait task cancelAt next).plan_reply _ (Nat.lt_succ_self _) fun accepted => ?_
        exact absurd accepted (follows.not_accepted (Nat.le_refl _))

/-! ### Replies reach their callers -/

/-- A caller who is answered waits no longer. -/
theorem Follows.answer (follows : Follows dispatcher timeline s) {ticket : Nat} {reply : Reply}
    (known : ticket < timeline.tickets) :
    Follows dispatcher
      { timeline with waiting := timeline.waiting.filter fun other => other.ticket ≠ ticket }
      (s.answer ticket reply) where
  batches := follows.batches
  timers := follows.timers
  flights := follows.flights
  accepted := follows.accepted
  outcomes := by
    intro outcome member
    rcases List.mem_append.mp member with before | last
    · exact follows.outcomes outcome before
    · rw [List.mem_singleton.mp last]
      exact known
  fired := follows.fired
  own := follows.own
  waiting := by
    intro waiting member
    rw [List.mem_filter, decide_eq_true_eq] at member
    obtain ⟨bound, unanswered⟩ := follows.waiting waiting member.1
    refine ⟨bound, fun answered => ?_⟩
    show False
    change waiting.ticket ∈ (s.outcomes ++ [(ticket, reply)]).map Prod.fst at answered
    rw [List.map_append, List.mem_append] at answered
    rcases answered with before | last
    · exact unanswered before
    · exact member.2 (List.mem_singleton.mp last)

theorem Follows.fire (follows : Follows dispatcher timeline s) {ticket : Nat}
    (known : ticket < timeline.tickets) : Follows dispatcher timeline (s.fire ticket) :=
  { follows with
    fired := by
      intro caller member
      rcases List.mem_cons.mp member with rfl | before
      · exact known
      · exact follows.fired caller before }

/-- **A reply that reaches its caller** is the caller's share, or that its token fired, or has
nothing to do with batches; the caller's program then runs on. -/
theorem deliver_follows (surroundings : Template.Surroundings) {ticket : Nat} {reply : Reply}
    (follows : Follows dispatcher timeline s) (reached : Reachable dispatcher s)
    (due : ticket ∈ s.accepted.map (fun request => request.2.caller) →
      reply = .cancelled ∨ (ticket, reply) ∈ s.shares) :
    ∃ s', Reachable dispatcher s' ∧ s'.calls = s.calls ∧
      Follows dispatcher (timeline.deliver dispatcher surroundings ticket reply) s' := by
  unfold Timeline.deliver
  split
  · exact ⟨s, reached, rfl, follows⟩
  · rename_i waiting found
    have same : waiting.ticket = ticket := by simpa using List.find?_some found
    obtain ⟨known, unanswered⟩ := follows.waiting waiting (List.mem_of_find?_eq_some found)
    rw [same] at known unanswered
    by_cases accepted : ticket ∈ s.accepted.map (fun request => request.2.caller)
    · rcases due accepted with rfl | shared
      · have fired : Reachable dispatcher (s.fire ticket) := .step reached (.fire ticket)
        have told : Reachable dispatcher ((s.fire ticket).answer ticket .cancelled) :=
          .step fired (.giveUp ticket ⟨accepted, unanswered⟩ List.mem_cons_self)
        obtain ⟨s', reached', calls, follows'⟩ :=
          start_follows surroundings _ _ _ ((follows.fire known).answer known) told
        exact ⟨s', reached', calls, follows'⟩
      · have told : Reachable dispatcher (s.answer ticket reply) :=
          .step reached (.receive ticket reply ⟨accepted, unanswered⟩ shared)
        obtain ⟨s', reached', calls, follows'⟩ :=
          start_follows surroundings _ _ _ (follows.answer known) told
        exact ⟨s', reached', calls, follows'⟩
    · refine start_follows surroundings _ _ _ { follows with waiting := ?_ } reached
      exact fun other member => follows.waiting other (List.mem_filter.mp member).1

/-- Shares reach their callers one after another. -/
theorem deliverAll_follows (surroundings : Template.Surroundings) (list : List (Nat × Reply))
    {timeline : Timeline α} {s : State} (follows : Follows dispatcher timeline s)
    (reached : Reachable dispatcher s) (shared : ∀ share ∈ list, share ∈ s.shares) :
    ∃ s', Reachable dispatcher s' ∧ s'.calls = s.calls ∧
      Follows dispatcher
        (list.foldl
          (fun timeline (ticket, share) => timeline.deliver dispatcher surroundings ticket share)
          timeline) s' := by
  induction list generalizing timeline s with
  | nil => exact ⟨s, reached, rfl, follows⟩
  | cons share rest ih =>
    obtain ⟨s', reached', calls', follows'⟩ := deliver_follows surroundings follows reached
      fun _ => .inr (shared share List.mem_cons_self)
    have shared' : ∀ share ∈ rest, share ∈ s'.shares := by
      rw [State.shares, calls']
      exact fun share member => shared share (List.mem_cons_of_mem _ member)
    obtain ⟨s'', reached'', calls'', follows''⟩ := ih follows' reached' shared'
    exact ⟨s'', reached'', calls''.trans calls', follows''⟩

/-- A call that has its reply is shared out. -/
theorem shareOut_follows (surroundings : Template.Surroundings) (call : BatchCall) {reply : Reply}
    (follows : Follows dispatcher timeline s) (reached : Reachable dispatcher s)
    (called : call ∈ s.calls) (replied : call.reply? = some reply) :
    ∃ s', Reachable dispatcher s' ∧
      Follows dispatcher
        (timeline.shareOut dispatcher surroundings call.key call.callers reply) s' := by
  have shared : ∀ share ∈ call.sharesOf reply, share ∈ s.shares := by
    intro share given
    refine List.mem_flatMap.mpr ⟨call, called, ?_⟩
    rw [BatchCall.shares, replied]
    exact given
  obtain ⟨s', reached', _, follows'⟩ := deliverAll_follows surroundings _ follows reached shared
  refine ⟨s', reached', ?_⟩
  rw [BatchCall.sharesOf, ← call.length_callers] at follows'
  exact follows'

/-! ### Entries of the agenda -/

/-- What a timeline is when it has taken the first entry of its agenda. -/
def taken (timeline : Timeline α) (time : Nat) (agenda : List (Nat × Occasion)) : Timeline α :=
  { timeline with clock := time, agenda }

/-- An entry that neither closes a batch nor answers a call can be taken without a step. -/
theorem Follows.take_reply (follows : Follows dispatcher timeline s) {time ticket : Nat}
    {content : Reply} {agenda : List (Nat × Occasion)}
    (head : timeline.agenda = (time, .reply ticket content) :: agenda) :
    Follows dispatcher (taken timeline time agenda) s where
  batches := follows.batches
  timers := by
    have timers := follows.timers
    rw [Timeline.closing, head] at timers
    exact timers
  flights := by
    have flights := follows.flights
    rw [Timeline.sharing, head] at flights
    exact flights
  accepted := follows.accepted
  outcomes := follows.outcomes
  fired := follows.fired
  own := fun entry member => follows.own entry (head ▸ List.mem_cons_of_mem _ member)
  waiting := follows.waiting

/-- A window expires: its batch is closed, and its call is still to be sent. -/
theorem Follows.take_close (follows : Follows dispatcher timeline s) {time : Nat} {key : BatchKey}
    {agenda : List (Nat × Occasion)} (services : ServiceState)
    (head : timeline.agenda = (time, .close key) :: agenda) :
    key ∈ s.timers ∧
      Follows dispatcher
        { taken timeline time agenda with services, batches := timeline.batches.close key }
        { s.flush key with calls := s.calls } := by
  have timers := follows.timers
  rw [Timeline.closing, head] at timers
  have running : key ∈ s.timers := timers.subset List.mem_cons_self
  refine ⟨running, ?_⟩
  exact
    { batches := by
        show timeline.batches.close key = s.batches.close key
        rw [follows.batches]
      timers := (timers.trans (List.perm_cons_erase running)).cons_inv
      flights := by
        have flights := follows.flights
        rw [Timeline.sharing, head] at flights
        exact flights
      accepted := follows.accepted
      outcomes := follows.outcomes
      fired := follows.fired
      own := fun entry member => follows.own entry (head ▸ List.mem_cons_of_mem _ member)
      waiting := follows.waiting }

/-- A reply to a call is planned. -/
theorem Follows.plan_share (follows : Follows dispatcher timeline s) (delay : Nat)
    (call : BatchCall) {content : Reply} (unanswered : call.reply? = none)
    (answers : call.Answers dispatcher content) :
    Follows dispatcher (timeline.plan delay (.share call.key call.callers content))
      { s with calls := s.calls ++ [call] } where
  batches := follows.batches
  timers := (timeline.closing_plan delay _).trans follows.timers
  flights := (follows.flights.cons ⟨rfl, rfl, answers⟩ unanswered).of_perm
    (timeline.sharing_plan delay _)
  accepted := follows.accepted
  outcomes := follows.outcomes
  fired := follows.fired
  own := by
    intro entry member ticket reply same
    rcases Timeline.mem_agenda_plan member with planned | before
    · cases planned.symm.trans same
    · exact follows.own entry before ticket reply same
  waiting := follows.waiting

/-- A call that is answered at once is not planned. -/
theorem Follows.append_answered (follows : Follows dispatcher timeline s) (call : BatchCall)
    (answered : call.reply?.isSome) :
    Follows dispatcher timeline { s with calls := s.calls ++ [call] } :=
  { follows with flights := follows.flights.append_answered answered }

/-- **An expired window**: the batch is sent, and perhaps answered at once. -/
theorem closeBatch_follows (surroundings : Template.Surroundings) {time : Nat} {key : BatchKey}
    {agenda : List (Nat × Occasion)} (follows : Follows dispatcher timeline s)
    (reached : Reachable dispatcher s) (head : timeline.agenda = (time, .close key) :: agenda) :
    ∃ s', Reachable dispatcher s' ∧
      Follows dispatcher
        ((taken timeline time agenda).closeBatch dispatcher surroundings key) s' := by
  unfold Timeline.closeBatch
  split
  · rename_i empty
    have running := (follows.take_close {} head).1
    refine absurd ?_ (reached.consistent.members_ne_nil running)
    rw [← follows.batches]
    exact empty
  · rename_i members _
    let call : BatchCall := { key, members := s.batches.members key }
    let reply := dispatcher.invoke key.source (Batch.request call.members) none timeline.services
    have same : (taken timeline time agenda).batches.members key = call.members := by
      show timeline.batches.members key = _
      rw [follows.batches]
    obtain ⟨running, closed⟩ := follows.take_close reply.2 head
    have flushed : Reachable dispatcher (s.flush key) := .step reached (.expire key running)
    have calls : (s.flush key).calls = s.calls ++ [call] :=
      reached.consistent.calls_flush running
    have answers : call.Answers dispatcher reply.1.content := ⟨_, rfl⟩
    rw [same]
    simp only
    split
    · have sent : (s.flush key).calls[s.calls.length]? = some call := by
        rw [calls, List.getElem?_concat_length]
      have settled : Reachable dispatcher
          ((s.flush key).settle s.calls.length call reply.1.content) :=
        .step flushed (.reply _ call _ sent rfl answers)
      have shape : { s.flush key with calls :=
            s.calls ++ [{ call with reply? := some reply.1.content }] } =
          (s.flush key).settle s.calls.length call reply.1.content := by
        rw [State.settle, calls, List.set_append_right _ _ (Nat.le_refl _), Nat.sub_self]
        rfl
      have now := closed.append_answered { call with reply? := some reply.1.content } rfl
      rw [shape] at now
      refine shareOut_follows surroundings { call with reply? := some reply.1.content } now settled
        ?_ rfl
      rw [← shape]
      exact List.mem_append_right _ List.mem_cons_self
    · have planned := closed.plan_share reply.1.delay call rfl answers
      have shape : { s.flush key with calls := s.calls ++ [call] } = s.flush key := by rw [← calls]
      rw [shape] at planned
      exact ⟨s.flush key, flushed, planned⟩

/-- **A reply to a call** is shared out. -/
theorem share_follows (surroundings : Template.Surroundings) {time : Nat} {key : BatchKey}
    {tickets : List Nat} {content : Reply} {agenda : List (Nat × Occasion)}
    (follows : Follows dispatcher timeline s) (reached : Reachable dispatcher s)
    (head : timeline.agenda = (time, .share key tickets content) :: agenda) :
    ∃ s', Reachable dispatcher s' ∧
      Follows dispatcher
        ((taken timeline time agenda).shareOut dispatcher surroundings key tickets content) s' := by
  have flights := follows.flights
  rw [Timeline.sharing, head] at flights
  obtain ⟨place, call, sent, unanswered, ⟨rfl, rfl, answers⟩, others⟩ := flights.uncons
  have settled : Reachable dispatcher (s.settle place call content) :=
    .step reached (.reply place call content sent unanswered answers)
  have here : Follows dispatcher (taken timeline time agenda) (s.settle place call content) :=
    { batches := follows.batches
      timers := by
        have timers := follows.timers
        rw [Timeline.closing, head] at timers
        exact timers
      flights := others content
      accepted := follows.accepted
      outcomes := follows.outcomes
      fired := follows.fired
      own := fun entry member => follows.own entry (head ▸ List.mem_cons_of_mem _ member)
      waiting := follows.waiting }
  refine shareOut_follows surroundings { call with reply? := some content } here settled ?_ rfl
  have bound := (List.getElem?_eq_some_iff.mp sent).1
  exact List.mem_iff_getElem?.mpr ⟨place, List.getElem?_set_self bound⟩

/-- **Taking an entry of the agenda is a sequence of steps.** -/
theorem step_follows (surroundings : Template.Surroundings) {after : Timeline α}
    (follows : Follows dispatcher timeline s) (reached : Reachable dispatcher s)
    (step : timeline.step? dispatcher surroundings = some after) :
    ∃ s', Reachable dispatcher s' ∧ Follows dispatcher after s' := by
  unfold Timeline.step? at step
  split at step
  · cases step
  · rename_i time occasion agenda head
    cases step
    cases occasion with
    | reply ticket content =>
      have own := follows.own _ (head ▸ List.mem_cons_self) ticket content rfl
      obtain ⟨s', reached', _, follows'⟩ := deliver_follows surroundings (follows.take_reply head)
        reached fun accepted => .inl (own.2 accepted)
      exact ⟨s', reached', follows'⟩
    | close key => exact closeBatch_follows surroundings follows reached head
    | share key tickets content => exact share_follows surroundings follows reached head

end

end Batching

/-! ### Timelines and sessions -/

section

variable {α : Type} {dispatcher : Dispatcher} {surroundings : Template.Surroundings}

/-- The timelines that come from programs being started and entries of the agenda being taken,
whatever the evaluator and the services were at the start. -/
inductive Timeline.Reached (dispatcher : Dispatcher) (surroundings : Template.Surroundings) :
    Timeline α → Prop where
  | fresh (evaluator : Template.Evaluator) (services : ServiceState) :
      Reached dispatcher surroundings { evaluator, services }
  | start {timeline : Timeline α} (reached : Reached dispatcher surroundings timeline) (task : Nat)
      (cancelAt : Option Nat) (program : Program α) :
      Reached dispatcher surroundings
        (timeline.start dispatcher surroundings task cancelAt program)
  | step {timeline after : Timeline α} (reached : Reached dispatcher surroundings timeline)
      (step : timeline.step? dispatcher surroundings = some after) :
      Reached dispatcher surroundings after

namespace Timeline

/-- **A timeline is always in a state that the protocol can reach.** -/
theorem Reached.follows {timeline : Timeline α}
    (reached : Reached dispatcher surroundings timeline) :
    ∃ s, Reachable dispatcher s ∧ Follows dispatcher timeline s := by
  induction reached with
  | fresh evaluator services => exact ⟨{}, .start, follows_start evaluator services⟩
  | start _ task cancelAt program ih =>
    obtain ⟨s, reachable, follows⟩ := ih
    obtain ⟨s', reachable', _, follows'⟩ :=
      start_follows surroundings task cancelAt program follows reachable
    exact ⟨s', reachable', follows'⟩
  | step _ step ih =>
    obtain ⟨s, reachable, follows⟩ := ih
    exact step_follows surroundings follows reachable step

theorem Reached.advance (finished : Timeline α → Bool) (budget : Nat) {timeline : Timeline α}
    (reached : Reached dispatcher surroundings timeline) :
    Reached dispatcher surroundings
      (timeline.advance dispatcher surroundings finished budget) := by
  induction budget generalizing timeline with
  | zero => exact reached
  | succ budget ih =>
    rw [Timeline.advance]
    split
    · exact reached
    · split
      · exact reached
      · rename_i after step
        exact ih (reached.step step)

theorem Reached.finish {timeline : Timeline α} (reached : Reached dispatcher surroundings timeline)
    (task calls : Nat) (cancelAfter : Option Nat) (program : Program α) :
    Reached dispatcher surroundings
      (timeline.finish dispatcher surroundings task calls cancelAfter program) :=
  (reached.start task _ program).advance _ _

theorem Reached.startAll (programs : List (Nat × Option Nat × Program α)) {timeline : Timeline α}
    (reached : Reached dispatcher surroundings timeline) :
    Reached dispatcher surroundings (startAll dispatcher surroundings programs timeline) := by
  induction programs generalizing timeline with
  | nil => exact reached
  | cons program rest ih => exact ih (reached.start _ _ _)

theorem Reached.finishAll {timeline : Timeline α}
    (reached : Reached dispatcher surroundings timeline) (calls : Nat) (deadline : Option Nat)
    (programs : List (Nat × Option Nat × Program α)) :
    Reached dispatcher surroundings
      (timeline.finishAll dispatcher surroundings calls deadline programs) :=
  (reached.startAll programs).advance _ _

end Timeline

namespace Session

/-- Whether a session's timeline comes from programs being started and entries being taken. -/
def Reached (session : Session) : Prop :=
  session.timeline.Reached session.dispatcher session.surroundings

theorem Reached.resolveField {session : Session} (reached : session.Reached) (resolver : Resolver)
    (request : FieldRequest) (cancelAfter : Option Nat) :
    (session.resolveField resolver request cancelAfter).2.Reached :=
  reached.finish _ _ _ _

theorem Reached.resolveFields {session : Session} (reached : session.Reached)
    (fields : List (Resolver × FieldRequest)) (cancelAfter : Option Nat) :
    (session.resolveFields fields cancelAfter).2.Reached := by
  unfold Session.resolveFields
  split
  · exact reached
  · exact reached.finishAll _ _ _

end Session

end

end FieldResolver

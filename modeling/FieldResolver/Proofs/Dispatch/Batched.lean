/-
**A member of a batch from its request to its share.**

A program whose request joined a batch waits until the window is over, and then for the reply to the
call of the batch. On the way it may give up, but nothing else that happens concerns it.

* `Timeline.Queued`: whether a program's request waits in a batch, at a place; `joinBatch_queued`
  brings it there;
* `Queued.closed`: when the batch is closed, the first of the three instants decides, the call
  starting then;
* `Queued.evolves`: whatever the others do, the request waits until its batch is closed.
-/

import FieldResolver.Proofs.Dispatch.Race
import FieldResolver.Proofs.Dispatch.Waiting

namespace FieldResolver

open Dispatcher (replyOf settle)
open Template (Surroundings)

section

variable {α : Type}

namespace Timeline

variable {dispatcher : Dispatcher} {surroundings : Surroundings} {ticket task closeAt place : Nat}
  {key : BatchKey} {request : Json} {cancelAt : Option Nat} {result : Reply → α}
  {timeline after : Timeline α}

/-! ### Waiting in a batch -/

/-- Whether a ticket's request is at a place of a batch, and in no other one. -/
structure InBatch (ticket : Nat) (key : BatchKey) (place : Nat) (request : Json)
    (timeline : Timeline α) : Prop where
  known : ticket < timeline.tickets
  member : (timeline.batches.members key)[place]? = some { caller := ticket, request }
  only : ∀ other, ∀ member ∈ timeline.batches.members other, member.caller = ticket → other = key

theorem InBatch.keeps (here : timeline.InBatch ticket key place request)
    (keeps : Keeps ticket timeline after) : after.InBatch ticket key place request where
  known := keeps.known
  member := by
    obtain ⟨joined, members⟩ := keeps.members key _ (List.mem_of_getElem? here.member) rfl
    have bound := (List.getElem?_eq_some_iff.mp here.member).1
    rw [← members, List.getElem?_append_left bound]
    exact here.member
  only := fun other member waits same =>
    here.only other member (keeps.only other member waits same) same

/-- Whether a program's request waits in a batch that is closed at a time. The program may have
given up already, which its batch does not know. -/
structure Queued (ticket task : Nat) (result : Reply → α) (cancelAt : Option Nat) (closeAt : Nat)
    (key : BatchKey) (place : Nat) (request : Json) (timeline : Timeline α) : Prop where
  inBatch : timeline.InBatch ticket key place request
  closes : (closeAt, Occasion.close key) ∈ timeline.agenda
  waits : timeline.Waits ticket task (fun reply => .done (result reply)) ∧
      tellings ticket timeline.agenda = (cancelAt.map (·, Reply.cancelled)).toList ∨
    ∃ c ∈ cancelAt, c ≤ closeAt ∧ timeline.result? task = some (result .cancelled)

/-- **An entry of the agenda is taken**: it closes the batch, or the request waits on. -/
theorem Queued.step (queued : timeline.Queued ticket task result cancelAt closeAt key place request)
    (reached : timeline.Reached dispatcher surroundings)
    (step : timeline.step? dispatcher surroundings = some after) :
    after.Queued ticket task result cancelAt closeAt key place request ∨
      ∃ agenda, timeline.agenda = (closeAt, .close key) :: agenda := by
  obtain ⟨time, occasion, agenda, head, rfl⟩ := step?_eq_some.mp step
  have closes := queued.closes
  rw [head, List.mem_cons] at closes
  by_cases closing : occasion = .close key
  · subst closing
    refine .inr ⟨agenda, ?_⟩
    rcases closes with here | again
    · rw [head, here]
    · exact absurd again (reached.close_unique head)
  · have planned : (closeAt, Occasion.close key) ∈ agenda :=
      closes.resolve_left fun here => closing (Prod.mk.inj here).2.symm
    let taken : Timeline α := { timeline with clock := time, agenda }
    have inBatch : taken.InBatch ticket key place request := { queued.inBatch with }
    have apart : ∀ other, occasion = .close other →
        ∀ member ∈ taken.batches.members other, member.caller ≠ ticket := by
      rintro other rfl member waits same
      exact closing (congrArg Occasion.close (inBatch.only other member waits same))
    have keeps : Keeps ticket taken (taken.happen dispatcher surroundings occasion) :=
      happen_keeps inBatch.known apart
    have onward : Onward dispatcher taken (taken.happen dispatcher surroundings occasion) :=
      happen_onward dispatcher surroundings occasion taken
    refine .inl ⟨inBatch.keeps keeps, onward.entries _ planned, ?_⟩
    rcases queued.waits with ⟨waits, tellings⟩ | ⟨c, gives, before, gone⟩
    · have waits : taken.Waits ticket task fun reply => .done (result reply) :=
        waits.of_eq rfl rfl rfl
      rw [head, tellings_cons] at tellings
      cases tells : occasion.told ticket with
      | nil =>
        rw [tells, List.map_nil, List.nil_append] at tellings
        exact .inl ⟨waits.happen tells apart, keeps.tellings.trans tellings⟩
      | cons reply more =>
        -- Only its own cancellation can be there for the ticket, and the batch is still open.
        rw [tells] at tellings
        cases cancelAt with
        | none => cases tellings
        | some c =>
          obtain ⟨first, -⟩ := List.cons.inj tellings
          obtain ⟨rfl, rfl⟩ := Prod.mk.inj first
          have order := reached.inOrder
          rw [head] at order
          have before := (List.pairwise_cons.mp order).1 _ planned
          exact .inr ⟨_, rfl, before, waits.told tells⟩
    · exact .inr ⟨c, gives, before, result?_stays onward.results gone⟩

/-- **Another program is started**, and the request waits on. -/
theorem Queued.start
    (queued : timeline.Queued ticket task result cancelAt closeAt key place request) {other : Nat}
    (apart : other ≠ task) (dispatcher : Dispatcher) (surroundings : Surroundings)
    (gives : Option Nat) (program : Program α) :
    (start dispatcher surroundings other gives program timeline).Queued ticket task result
      cancelAt closeAt key place request := by
  have keeps : Keeps ticket timeline (timeline.start dispatcher surroundings other gives program) :=
    start_keeps queued.inBatch.known dispatcher surroundings other gives program
  have onward : Onward dispatcher timeline
      (timeline.start dispatcher surroundings other gives program) :=
    start_onward dispatcher surroundings other gives program timeline
  refine ⟨queued.inBatch.keeps keeps, onward.entries _ queued.closes, ?_⟩
  rcases queued.waits with ⟨waits, tellings⟩ | ⟨c, gives, before, gone⟩
  · exact .inl ⟨waits.start apart _ _ _ _, keeps.tellings.trans tellings⟩
  · exact .inr ⟨c, gives, before, result?_stays onward.results gone⟩

/-! ### Joining a batch -/

/-- Nobody else has the number of a program: none that waits and none that has ended. -/
structure Unused (task : Nat) (timeline : Timeline α) : Prop where
  waiting : ∀ waiting ∈ timeline.waiting, waiting.task ≠ task
  ended : timeline.result? task = none

/-- A program waits under a new ticket. -/
theorem Unused.wait (unused : timeline.Unused task)
    (reached : timeline.Reached dispatcher surroundings) (cancelAt : Option Nat)
    (next : Reply → Program α) :
    (timeline.wait task cancelAt next).Waits timeline.tickets task next where
  known := Nat.lt_succ_self _
  alone := by
    have none : timeline.concerned timeline.tickets task = [] := by
      refine List.filter_eq_nil_iff.mpr fun waiting waits => ?_
      have old := Nat.ne_of_lt (reached.waiting_known waits)
      simp [old, unused.waiting waiting waits]
    refine ⟨cancelAt, ?_⟩
    show (timeline.waiting ++ [_]).filter _ = _
    rw [List.filter_append, List.filter_cons_of_pos (by simp), List.filter_nil]
    exact congrArg (· ++ _) none
  unanswered := unused.ended

/-- Nobody is in a batch under a ticket that was not given out yet. -/
theorem Reached.unbatched (reached : timeline.Reached dispatcher surroundings) (key : BatchKey) :
    ∀ member ∈ timeline.batches.members key, member.caller ≠ timeline.tickets :=
  fun _ waits => Nat.ne_of_lt (reached.members_known waits)

/-- A program that waits plans when it gives up. -/
theorem Queued.gives_up
    (queued : timeline.Queued ticket task result none closeAt key place request) {c delay : Nat}
    (time : timeline.clock + delay = c) (ordered : InOrder timeline.agenda) :
    (timeline.plan delay (.reply ticket .cancelled)).Queued ticket task result (some c) closeAt key
      place request where
  inBatch := { queued.inBatch with }
  closes := mem_insertEntry.mpr (.inr queued.closes)
  waits := by
    rcases queued.waits with ⟨waits, tellings⟩ | ⟨_, gives, -⟩
    · refine .inl ⟨waits.of_eq rfl rfl rfl, ?_⟩
      have own : (Occasion.reply ticket .cancelled).told ticket = [.cancelled] := by
        simp [Occasion.told, Occasion.deliveries]
      show Timeline.tellings ticket (insertEntry _ _ _) = _
      rw [tellings_insertEntry ordered, tellings, own, time]
      rfl
    · cases gives

/-- A request is behind those that joined its batch before. -/
theorem enlist_inBatch (reached : timeline.Reached dispatcher surroundings) (task : Nat)
    (cancelAt : Option Nat) (key : BatchKey) (request : Json) (next : Reply → Program α) :
    (timeline.enlist task cancelAt key request next).InBatch timeline.tickets key
      (timeline.batches.members key).length request where
  known := Nat.lt_succ_self _
  member := by
    show ((timeline.batches.join key _).members key)[_]? = _
    rw [Batches.members_join, List.getElem?_concat_length]
  only := by
    intro other member waits same
    by_contra apart
    change member ∈ (timeline.batches.join key _).members other at waits
    rw [Batches.members_join_of_ne _ _ apart] at waits
    exact reached.unbatched other member waits same

/-- The window of its batch runs from now on if the request opens the batch. -/
theorem withWindow_queued (unused : timeline.Unused task)
    (reached : timeline.Reached dispatcher surroundings) (cancelAt : Option Nat) (key : BatchKey)
    (request : Json) (result : Reply → α) :
    ∃ closeAt,
      ((timeline.enlist task cancelAt key request fun reply => .done (result reply)).withWindow
          dispatcher key (!timeline.batches.isOpen key)).Queued timeline.tickets task result none
        closeAt key (timeline.batches.members key).length request ∧
      (timeline.batches.isOpen key = false →
        closeAt = timeline.clock + dispatcher.batchWindowMs) := by
  have inBatch := enlist_inBatch reached task cancelAt key request fun reply => .done (result reply)
  have alone : (timeline.enlist task cancelAt key request fun reply => .done (result reply)).Waits
      timeline.tickets task fun reply => .done (result reply) :=
    (unused.wait reached cancelAt _).of_eq rfl rfl rfl
  have untold : tellings timeline.tickets timeline.agenda = [] :=
    reached.tellings_of_new (Nat.le_refl _)
  unfold withWindow
  cases isOpen : timeline.batches.isOpen key with
  | true =>
    obtain ⟨closeAt, planned⟩ := reached.exists_close isOpen
    exact ⟨closeAt, ⟨inBatch, planned, .inl ⟨alone, untold⟩⟩, nofun⟩
  | false =>
    have apart : (Occasion.close key).told timeline.tickets = [] := rfl
    refine ⟨_, ⟨{ inBatch with }, mem_insertEntry.mpr (.inl rfl), .inl ⟨?_, ?_⟩⟩, fun _ => rfl⟩
    · exact alone.of_eq rfl rfl rfl
    · exact (tellings_insertEntry_of_apart apart _ timeline.agenda).trans untold

/-- **A request joins its batch**, which is closed when its window is over. -/
theorem joinBatch_queued (unused : timeline.Unused task)
    (reached : timeline.Reached dispatcher surroundings) (key : BatchKey) (request : Json)
    (result : Reply → α) (live : timeline.untilTime cancelAt ≠ some 0) :
    ∃ closeAt,
      (timeline.joinBatch dispatcher task cancelAt key request
          fun reply => .done (result reply)).Queued timeline.tickets task result cancelAt closeAt
        key (timeline.batches.members key).length request ∧
      (timeline.batches.isOpen key = false →
        closeAt = timeline.clock + dispatcher.batchWindowMs) := by
  obtain ⟨closeAt, queued, opened⟩ := withWindow_queued unused reached cancelAt key request result
  have onward := withWindow_onward
    (timeline.enlist task cancelAt key request fun reply => .done (result reply)) dispatcher key
    (!timeline.batches.isOpen key)
  refine ⟨closeAt, ?_, opened⟩
  rw [joinBatch_eq]
  cases cancelAt with
  | none => exact queued
  | some c =>
    refine queued.gives_up ?_ (onward.inOrder reached.inOrder)
    have later : c - timeline.clock ≠ 0 := fun zero => live (congrArg some zero)
    rw [onward.clock]
    show timeline.clock + (c - timeline.clock) = c
    omega

/-! ### The batch is closed -/

/-- A member of a batch is told its share and nothing else. -/
theorem InBatch.told_share (here : timeline.InBatch ticket key place request)
    (reached : timeline.Reached dispatcher surroundings) {content own : Reply}
    (owned : (Batch.shares key.source (timeline.batches.members key).length content)[place]? =
      some own) :
    (Occasion.share key ((timeline.batches.members key).map BatchMember.caller) content).told
      ticket = [own] := by
  have position : ((timeline.batches.members key).map BatchMember.caller)[place]? =
      some ticket := by
    rw [List.getElem?_map, here.member]
    rfl
  refine Occasion.told_share reached.members_nodup position ?_
  rw [List.length_map]
  exact owned

/-- Nobody is in a batch any more that is closed. -/
theorem InBatch.closed (here : timeline.InBatch ticket key place request) {other : BatchKey}
    {member : BatchMember} (waits : member ∈ (timeline.batches.close key).members other) :
    member.caller ≠ ticket := by
  intro same
  by_cases apart : other = key
  · rw [apart, Batches.members_close] at waits
    cases waits
  · rw [Batches.members_close_of_ne _ apart] at waits
    exact apart (here.only other member waits same)

/-- What is first on an agenda on which a reply comes in beside a cancellation. -/
theorem exists_first {agenda : List (Nat × Occasion)} (ordered : InOrder agenda)
    (tellings : tellings ticket agenda = (cancelAt.map (·, Reply.cancelled)).toList) (time : Nat)
    {occasion : Occasion} {own : Reply} (told : occasion.told ticket = [own]) :
    ∃ due reply,
      (Timeline.tellings ticket (insertEntry time occasion agenda)).head? = some (due, reply) ∧
      (∀ c ∈ cancelAt, c < time → reply = .cancelled) ∧
      ((∀ c ∈ cancelAt, time < c) → reply = own) := by
  rw [tellings_insertEntry ordered, tellings, told]
  cases cancelAt with
  | none => exact ⟨time, own, rfl, nofun, fun _ => rfl⟩
  | some c =>
    by_cases before : c ≤ time
    · refine ⟨c, .cancelled, by simp [before], fun _ _ _ => rfl, fun later => ?_⟩
      exact absurd (later c rfl) (Nat.not_lt.mpr before)
    · refine ⟨time, own, by simp [before], fun other gives first => ?_, fun _ => rfl⟩
      cases gives
      exact absurd (Nat.le_of_lt first) before

/-- A cancellation that is still planned is not before the end of the window. -/
theorem le_of_planned {agenda : List (Nat × Occasion)}
    (reached : timeline.Reached dispatcher surroundings)
    (head : timeline.agenda = (closeAt, .close key) :: agenda)
    (tellings : tellings ticket agenda = (cancelAt.map (·, Reply.cancelled)).toList) :
    ∀ c ∈ cancelAt, closeAt ≤ c := by
  rintro c rfl
  have planned : (c, Reply.cancelled) ∈ Timeline.tellings ticket agenda := by
    rw [tellings]
    exact List.mem_cons_self
  obtain ⟨entry, inAgenda, same, -⟩ := mem_of_mem_tellings planned
  have order := reached.inOrder
  rw [head] at order
  have later := (List.pairwise_cons.mp order).1 entry inAgenda
  rwa [same] at later

/-- When the batch is closed, its call has a reply in a while. The caller has its share of it, or
gives up if that is before. -/
theorem Queued.settled {settled : Timed Reply} {services : ServiceState} {own : Reply}
    {agenda : List (Nat × Occasion)}
    (queued : timeline.Queued ticket task result cancelAt closeAt key place request)
    (reached : timeline.Reached dispatcher surroundings)
    (head : timeline.agenda = (closeAt, .close key) :: agenda)
    (replies : dispatcher.invoke key.source (Batch.request (timeline.batches.members key)) none
      timeline.services = (settled, services))
    (owned : (Batch.shares key.source (timeline.batches.members key).length
      settled.content)[place]? = some own) :
    ∃ reply due, (∀ c ∈ cancelAt, c < closeAt + settled.delay → reply = .cancelled) ∧
      ((∀ c ∈ cancelAt, closeAt + settled.delay < c) → reply = own) ∧
      (Expects ticket task result (due, reply)
          (closeBatch dispatcher surroundings { timeline with clock := closeAt, agenda } key) ∨
        (closeBatch dispatcher surroundings
          { timeline with clock := closeAt, agenda } key).result? task = some (result reply)) := by
  let taken : Timeline α := { timeline with clock := closeAt, agenda }
  have filled : timeline.batches.members key ≠ [] := by
    intro none
    have member := queued.inBatch.member
    rw [none] at member
    cases member
  have closing : taken.closeBatch dispatcher surroundings key = _ :=
    closeBatch_of_members rfl filled replies
  rcases queued.waits with ⟨waits, tellings⟩ | ⟨c, gives, before, gone⟩
  · have waits : (taken.closed key services).Waits ticket task fun reply => .done (result reply) :=
      waits.of_eq rfl rfl rfl
    have untold : (Occasion.close key).told ticket = [] := rfl
    rw [head, tellings_cons, untold, List.map_nil, List.nil_append] at tellings
    have told := queued.inBatch.told_share reached owned
    by_cases instant : settled.delay = 0
    · refine ⟨own, closeAt, ?_, fun _ => rfl, .inr ?_⟩
      · intro c gives first
        have later := le_of_planned reached head tellings c gives
        rw [instant] at first
        omega
      · show (taken.closeBatch dispatcher surroundings key).result? task = _
        rw [closing, if_pos instant]
        exact waits.told told
    · have ordered : InOrder agenda := (List.pairwise_cons.mp (head ▸ reached.inOrder)).2
      obtain ⟨due, reply, first, gone, stays⟩ :=
        exists_first ordered tellings (closeAt + settled.delay) told
      refine ⟨reply, due, gone, stays, .inl ?_⟩
      show Expects ticket task result (due, reply) (taken.closeBatch dispatcher surroundings key)
      rw [closing, if_neg instant]
      exact ⟨waits.of_eq rfl rfl rfl, first, fun _ _ inBatch => queued.inBatch.closed inBatch⟩
  · -- The caller has given up before, which is not after the instant of the call.
    refine ⟨.cancelled, closeAt, fun _ _ _ => rfl, fun later => ?_, .inr ?_⟩
    · have := later c gives
      omega
    · have onward : Onward dispatcher taken (taken.closeBatch dispatcher surroundings key) :=
        closeBatch_onward dispatcher surroundings key taken
      exact result?_stays onward.results gone

/-- **When the batch is closed, the first of the three instants decides**; the call starts then. -/
theorem Queued.closed {source : DataSource} {backend : Backend} {answer : Timed CallResult}
    {services : ServiceState} {agenda : List (Nat × Occasion)}
    (queued : timeline.Queued ticket task result cancelAt closeAt key place request)
    (reached : timeline.Reached dispatcher surroundings)
    (head : timeline.agenda = (closeAt, .close key) :: agenda)
    (registered : dispatcher.sources.find? key.source = some source)
    (backed : dispatcher.backend? source.kind = some backend)
    (serves : backend.serve dispatcher.services source (dispatcher.timeoutOf source)
      (Batch.request (timeline.batches.members key)) timeline.services = (answer, services)) :
    ∃ share reply due,
      (Batch.shares key.source (timeline.batches.members key).length
        (replyOf source answer.content))[place]? = some share ∧
      (dispatcher.race source closeAt cancelAt answer share).Decides reply ∧
      (Expects ticket task result (due, reply)
          (closeBatch dispatcher surroundings { timeline with clock := closeAt, agenda } key) ∨
        (closeBatch dispatcher surroundings
          { timeline with clock := closeAt, agenda } key).result? task = some (result reply)) := by
  let settled := settle source (dispatcher.timeoutOf source) answer
  have bound : place < (timeline.batches.members key).length :=
    (List.getElem?_eq_some_iff.mp queued.inBatch.member).1
  have replies : dispatcher.invoke key.source (Batch.request (timeline.batches.members key)) none
      timeline.services = (settled, services) := by
    have patient : (none : Option Nat) ≠ some 0 := nofun
    rw [Dispatcher.invoke_of_backed registered backed _ patient, serves]
    rfl
  obtain ⟨share, shared⟩ := Batch.exists_share key.source bound (replyOf source answer.content)
  obtain ⟨own, owned⟩ := Batch.exists_share key.source bound settled.content
  obtain ⟨reply, due, gone, stays, ends⟩ := queued.settled reached head replies owned
  exact ⟨share, reply, due, shared, Dispatcher.share_decides shared owned gone stays, ends⟩

/-- **A request waits in its batch until the window is over**, whatever the others do. -/
theorem Queued.evolves
    (queued : timeline.Queued ticket task result cancelAt closeAt key place request)
    (reached : timeline.Reached dispatcher surroundings)
    (course : Evolves dispatcher surroundings (· ≠ task) timeline after) :
    after.Queued ticket task result cancelAt closeAt key place request ∨
      ∃ closing agenda, Evolves dispatcher surroundings (· ≠ task) timeline closing ∧
        closing.Queued ticket task result cancelAt closeAt key place request ∧
        closing.agenda = (closeAt, .close key) :: agenda ∧
        Evolves dispatcher surroundings (· ≠ task)
          (closeBatch dispatcher surroundings { closing with clock := closeAt, agenda } key)
          after := by
  induction course with
  | refl => exact .inl queued
  | @tail middle after before move ih =>
    rcases ih with queued | ⟨closing, agenda, start, queued, head, course⟩
    · cases move with
      | step step =>
        rcases queued.step (reached.evolves before) step with still | ⟨agenda, head⟩
        · exact .inl still
        · refine .inr ⟨middle, agenda, before, queued, head, ?_⟩
          unfold step? at step
          rw [head] at step
          cases step
          exact .refl
      | start other gives program apart => exact .inl (queued.start apart _ _ gives program)
    · exact .inr ⟨closing, agenda, start, queued, head, course.tail move⟩

end Timeline

end

end FieldResolver

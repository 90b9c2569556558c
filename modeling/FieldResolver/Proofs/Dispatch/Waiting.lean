/-
**A program that waits among others.**

Others on a timeline start, get replies and join batches under tickets of their own, so what
concerns a ticket stays as it is until an entry of the agenda has a reply for it.

* `Timeline.Keeps`: what concerns a ticket is as it was; `happen_keeps` says so of every entry of
  the agenda but one that closes the ticket's own batch;
* `Timeline.Waits`: a program waits, and nothing else does so under its ticket or its number;
  `Waits.happen` and `Waits.told` are the entries that have no reply for it and those that have one;
* `Timeline.Expects`: the first reply on the agenda is known;
* `Expects.evolves`: that reply decides, whatever the others do.
-/

import FieldResolver.Proofs.Dispatch.Moves

namespace FieldResolver

open Template (Surroundings)

section

variable {α : Type}

namespace Timeline

variable {dispatcher : Dispatcher} {surroundings : Surroundings} {ticket task other : Nat}
  {cancelAt : Option Nat} {program : Program α} {timeline before middle after : Timeline α}

/-! ### What concerns a ticket -/

/-- Whether what concerns a ticket that was given out is as it was: what the agenda has for it and
the batch that it is in, but for those who join later. -/
structure Keeps (ticket : Nat) (before after : Timeline α) : Prop where
  known : ticket < after.tickets
  tellings : tellings ticket after.agenda = tellings ticket before.agenda
  members : ∀ key, ∀ member ∈ before.batches.members key, member.caller = ticket →
    before.batches.members key <+: after.batches.members key
  only : ∀ key, ∀ member ∈ after.batches.members key, member.caller = ticket →
    member ∈ before.batches.members key

/-- Nothing but the agenda, the batches and the tickets matters. -/
theorem Keeps.of_eq (known : ticket < before.tickets) (agenda : after.agenda = before.agenda)
    (batches : after.batches = before.batches) (tickets : before.tickets ≤ after.tickets) :
    Keeps ticket before after where
  known := Nat.lt_of_lt_of_le known tickets
  tellings := by rw [agenda]
  members := fun key _ _ _ => batches ▸ List.prefix_refl _
  only := fun _ _ member _ => batches ▸ member

theorem Keeps.refl (known : ticket < timeline.tickets) : Keeps ticket timeline timeline :=
  .of_eq known rfl rfl (Nat.le_refl _)

theorem Keeps.trans (first : Keeps ticket before middle) (second : Keeps ticket middle after) :
    Keeps ticket before after where
  known := second.known
  tellings := second.tellings.trans first.tellings
  members := by
    intro key member waits same
    have kept := first.members key member waits same
    exact kept.trans (second.members key member (kept.subset waits) same)
  only := fun key member waits same =>
    first.only key member (second.only key member waits same) same

/-- Something is planned for others. -/
theorem plan_keeps (known : ticket < timeline.tickets) (occasion : Occasion)
    (apart : occasion.told ticket = []) (delay : Nat) :
    Keeps ticket timeline (timeline.plan delay occasion) where
  known := known
  tellings := tellings_insertEntry_of_apart apart _ _
  members := fun _ _ _ _ => List.prefix_refl _
  only := fun _ _ member _ => member

theorem told_reply_of_ne (content : Reply) (apart : other ≠ ticket) :
    (Occasion.reply other content).told ticket = [] := by
  rw [Occasion.told_eq_nil]
  intro delivery member
  rw [List.mem_singleton.mp member]
  exact apart

/-- Another one joins a batch. -/
theorem enlist_keeps (known : ticket < timeline.tickets) (task : Nat) (cancelAt : Option Nat)
    (key : BatchKey) (request : Json) (next : Reply → Program α) :
    Keeps ticket timeline (timeline.enlist task cancelAt key request next) where
  known := Nat.lt_succ_of_lt known
  tellings := rfl
  members := by
    intro other member waits same
    show _ <+: (timeline.batches.join key _).members other
    by_cases here : other = key
    · subst here
      rw [Batches.members_join]
      exact List.prefix_append _ _
    · exact (Batches.members_join_of_ne timeline.batches _ here).symm ▸ List.prefix_refl _
  only := by
    intro other member waits same
    change member ∈ (timeline.batches.join key _).members other at waits
    by_cases here : other = key
    · subst here
      rw [Batches.members_join] at waits
      rcases List.mem_append.mp waits with before | last
      · exact before
      · rw [List.mem_singleton.mp last] at same
        exact absurd same (Nat.ne_of_gt known)
    · rwa [Batches.members_join_of_ne _ _ here] at waits

theorem joinBatch_keeps (known : ticket < timeline.tickets) (task : Nat) (cancelAt : Option Nat)
    (key : BatchKey) (request : Json) (next : Reply → Program α) :
    Keeps ticket timeline (timeline.joinBatch dispatcher task cancelAt key request next) := by
  apply joinBatch_cases
  · exact enlist_keeps known task cancelAt key request next
  · exact fun between keeps => keeps.trans (plan_keeps keeps.known (.close key) rfl _)
  · -- The new ticket is not this one.
    have new := told_reply_of_ne .cancelled (Nat.ne_of_gt known)
    exact fun between delay keeps => keeps.trans (plan_keeps keeps.known _ new delay)

/-- **Programs that are started** keep what concerns others. -/
theorem start_keeps (known : ticket < timeline.tickets) (dispatcher : Dispatcher)
    (surroundings : Surroundings) (task : Nat) (cancelAt : Option Nat) (program : Program α) :
    Keeps ticket timeline (start dispatcher surroundings task cancelAt program timeline) := by
  have begun := start_begun dispatcher surroundings task cancelAt program timeline
  generalize start dispatcher surroundings task cancelAt program timeline = after at begun ⊢
  cases begun with
  | ended result => exact .of_eq known rfl rfl (Nat.le_refl _)
  | waits delay content comes =>
    refine Keeps.trans ?_ (plan_keeps (Nat.lt_succ_of_lt known) _
      (told_reply_of_ne content (Nat.ne_of_gt known)) delay)
    exact .of_eq known rfl rfl (Nat.le_succ _)
  | joins key request comes =>
    refine Keeps.trans ?_ (joinBatch_keeps ?_ _ _ key request _)
    · exact .of_eq known rfl rfl (Nat.le_refl _)
    · exact known

/-- **Replies** keep what concerns others, and also the one who gets them. -/
theorem deliverAll_keeps (known : ticket < timeline.tickets) (deliveries : List (Nat × Reply)) :
    Keeps ticket timeline (deliverAll dispatcher surroundings deliveries timeline) := by
  refine deliverAll_related (fun before after =>
    ticket < before.tickets → Keeps ticket before after) (fun _ => Keeps.refl) ?_ ?_ deliveries
    timeline known
  · exact fun first second known => (first known).trans (second (first known).known)
  · intro receiver reply timeline known
    unfold deliver
    split
    · exact .refl known
    · refine Keeps.trans ?_ (start_keeps ?_ dispatcher surroundings _ _ _)
      · exact .of_eq known rfl rfl (Nat.le_refl _)
      · exact known

theorem closed_keeps (known : ticket < timeline.tickets) {key : BatchKey}
    (apart : ∀ member ∈ timeline.batches.members key, member.caller ≠ ticket)
    (services : ServiceState) : Keeps ticket timeline (timeline.closed key services) where
  known := known
  tellings := rfl
  members := by
    intro other member waits same
    have different : other ≠ key := by
      rintro rfl
      exact apart member waits same
    exact (Batches.members_close_of_ne timeline.batches different).symm ▸ List.prefix_refl _
  only := by
    intro other member waits same
    change member ∈ (timeline.batches.close key).members other at waits
    by_cases here : other = key
    · subst here
      rw [Batches.members_close] at waits
      cases waits
    · rwa [Batches.members_close_of_ne _ here] at waits

/-- A batch has no replies for those who are not in it. -/
theorem told_share_of_apart (key : BatchKey) {members : List BatchMember}
    (apart : ∀ member ∈ members, member.caller ≠ ticket) (content : Reply) :
    (Occasion.share key (members.map BatchMember.caller) content).told ticket = [] := by
  rw [Occasion.told_eq_nil]
  intro delivery brings same
  obtain ⟨member, inBatch, here⟩ := List.mem_map.mp (List.of_mem_zip brings).1
  exact apart member inBatch (here.trans same)

theorem closeBatch_keeps (known : ticket < timeline.tickets) {key : BatchKey}
    (apart : ∀ member ∈ timeline.batches.members key, member.caller ≠ ticket) :
    Keeps ticket timeline (timeline.closeBatch dispatcher surroundings key) := by
  have closed := closed_keeps known apart
  apply closeBatch_cases
  · exact .refl known
  · exact fun services content =>
      (closed services).trans (deliverAll_keeps (closed services).known _)
  · intro services delay content
    have others := told_share_of_apart key apart content
    exact (closed services).trans (plan_keeps (closed services).known _ others delay)

/-- **Whatever happens** keeps what concerns a ticket, unless its batch is closed. -/
theorem happen_keeps (known : ticket < timeline.tickets) {occasion : Occasion}
    (apart : ∀ key, occasion = .close key →
      ∀ member ∈ timeline.batches.members key, member.caller ≠ ticket) :
    Keeps ticket timeline (timeline.happen dispatcher surroundings occasion) := by
  cases occasion with
  | close key => exact closeBatch_keeps known (apart key rfl)
  | reply _ _ | share _ _ _ =>
    rw [happen_eq_deliverAll fun _ same => by cases same]
    exact deliverAll_keeps known _

/-! ### Results -/

/-- A result stays the result. -/
theorem result?_stays {result : α} (results : before.results <+: after.results)
    (ended : before.result? task = some result) : after.result? task = some result := by
  obtain ⟨more, same⟩ := results
  unfold result? at ended ⊢
  rw [← same, List.lookup_append, ended]
  rfl

theorem Moves.results {others : Nat → Prop}
    (move : Moves dispatcher surroundings others before after) :
    before.results <+: after.results := by
  cases move with
  | step step => exact step_results step
  | start task cancelAt program among =>
    exact (start_onward dispatcher surroundings task cancelAt program _).results

theorem Evolves.results {others : Nat → Prop}
    (course : Evolves dispatcher surroundings others before after) :
    before.results <+: after.results := by
  induction course with
  | refl => exact List.prefix_refl _
  | tail _ move ih => exact ih.trans move.results

/-! ### A program that waits -/

/-- The programs that wait under a ticket or have a number. -/
def concerned (ticket task : Nat) (timeline : Timeline α) : List (Waiting α) :=
  timeline.waiting.filter fun waiting => waiting.ticket = ticket ∨ waiting.task = task

/-- Whether a program waits, and nothing else does so under its ticket or with its number. -/
structure Waits (ticket task : Nat) (next : Reply → Program α) (timeline : Timeline α) : Prop where
  known : ticket < timeline.tickets
  alone : ∃ cancelAt, timeline.concerned ticket task = [{ ticket, task, cancelAt, next }]
  unanswered : timeline.result? task = none

variable {next : Reply → Program α}

/-- Nothing but who waits, the tickets and the results matters. -/
theorem Waits.of_eq (waits : before.Waits ticket task next)
    (waiting : after.waiting = before.waiting) (tickets : after.tickets = before.tickets)
    (results : after.results = before.results) : after.Waits ticket task next where
  known := tickets ▸ waits.known
  alone := by
    obtain ⟨cancelAt, alone⟩ := waits.alone
    refine ⟨cancelAt, ?_⟩
    rw [concerned, waiting]
    exact alone
  unanswered := by
    rw [result?, results]
    exact waits.unanswered

/-- Another program waits. -/
theorem Waits.wait (waits : timeline.Waits ticket task next) (apart : other ≠ task)
    (cancelAt : Option Nat) (further : Reply → Program α) :
    (timeline.wait other cancelAt further).Waits ticket task next where
  known := Nat.lt_succ_of_lt waits.known
  alone := by
    obtain ⟨own, alone⟩ := waits.alone
    have new : timeline.tickets ≠ ticket := Nat.ne_of_gt waits.known
    refine ⟨own, ?_⟩
    show (timeline.waiting ++ [_]).filter _ = _
    rw [List.filter_append, List.filter_cons_of_neg (by simp [new, apart]), List.filter_nil,
      List.append_nil]
    exact alone
  unanswered := waits.unanswered

/-- **Another program is started.** -/
theorem Waits.start (waits : timeline.Waits ticket task next) (apart : other ≠ task)
    (dispatcher : Dispatcher) (surroundings : Surroundings) (cancelAt : Option Nat)
    (program : Program α) :
    (start dispatcher surroundings other cancelAt program timeline).Waits ticket task next := by
  have begun := start_begun dispatcher surroundings other cancelAt program timeline
  generalize Timeline.start dispatcher surroundings other cancelAt program timeline = after
    at begun ⊢
  cases begun with
  | ended result =>
    refine { waits with unanswered := ?_ }
    have absent : [(other, result)].lookup task = none := by
      rw [List.lookup_eq_none_iff]
      intro entry member
      rw [List.mem_singleton.mp member]
      exact bne_iff_ne.mpr apart.symm
    show (timeline.results ++ [(other, result)]).lookup task = none
    rw [List.lookup_append, absent, Option.or_none]
    exact waits.unanswered
  | @waits evaluator services _ delay content comes =>
    have served : Waits ticket task next { timeline with evaluator, services } :=
      waits.of_eq rfl rfl rfl
    exact (served.wait apart cancelAt _).of_eq rfl rfl rfl
  | @joins evaluator services _ key request comes =>
    have served : Waits ticket task next { timeline with evaluator, services } :=
      waits.of_eq rfl rfl rfl
    apply joinBatch_cases
    · exact (served.wait apart cancelAt _).of_eq rfl rfl rfl
    · exact fun between waits => waits.of_eq rfl rfl rfl
    · exact fun between delay waits => waits.of_eq rfl rfl rfl

/-- **Another program gets a reply.** -/
theorem Waits.deliver_of_ne (waits : timeline.Waits ticket task next) (apart : other ≠ ticket)
    (reply : Reply) :
    (timeline.deliver dispatcher surroundings other reply).Waits ticket task next := by
  unfold deliver
  split
  · exact waits
  · rename_i waiting found
    obtain ⟨cancelAt, alone⟩ := waits.alone
    have isOther : waiting.ticket = other := by simpa using List.find?_some found
    have different : waiting.task ≠ task := by
      intro same
      have here : waiting ∈ timeline.concerned ticket task :=
        List.mem_filter.mpr ⟨List.mem_of_find?_eq_some found, by simp [same]⟩
      rw [alone, List.mem_singleton] at here
      rw [here] at isOther
      exact apart isOther.symm
    have left : Waits ticket task next
        { timeline with waiting := timeline.waiting.filter fun wait => wait.ticket ≠ other } := by
      refine { waits with alone := ⟨cancelAt, ?_⟩ }
      have kept : (timeline.waiting.filter fun wait => wait.ticket ≠ other).filter
          (fun wait => wait.ticket = ticket ∨ wait.task = task) =
            (timeline.concerned ticket task).filter fun wait => wait.ticket ≠ other := by
        rw [concerned, List.filter_filter, List.filter_filter]
        exact List.filter_congr fun _ _ => Bool.and_comm _ _
      refine kept.trans ?_
      rw [alone, List.filter_cons_of_pos (by simpa using apart.symm), List.filter_nil]
    exact left.start different dispatcher surroundings _ _

theorem Waits.deliverAll (waits : timeline.Waits ticket task next)
    {deliveries : List (Nat × Reply)} (apart : ∀ delivery ∈ deliveries, delivery.1 ≠ ticket) :
    (deliverAll dispatcher surroundings deliveries timeline).Waits ticket task next := by
  induction deliveries generalizing timeline with
  | nil => exact waits
  | cons delivery rest ih =>
    obtain ⟨here, others⟩ := List.forall_mem_cons.mp apart
    exact ih (waits.deliver_of_ne here _) others

/-- **An entry that has no reply for a program** leaves it waiting. -/
theorem Waits.happen (waits : timeline.Waits ticket task next) {occasion : Occasion}
    (apart : occasion.told ticket = [])
    (unbatched : ∀ key, occasion = .close key →
      ∀ member ∈ timeline.batches.members key, member.caller ≠ ticket) :
    (timeline.happen dispatcher surroundings occasion).Waits ticket task next := by
  cases occasion with
  | close key =>
    have closed : ∀ services, (timeline.closed key services).Waits ticket task next :=
      fun services => waits.of_eq rfl rfl rfl
    show (timeline.closeBatch dispatcher surroundings key).Waits ticket task next
    apply closeBatch_cases
    · exact waits
    · intro services content
      have others := told_share_of_apart key (unbatched key rfl) content
      exact (closed services).deliverAll (Occasion.told_eq_nil.mp others)
    · exact fun services delay content => (closed services).of_eq rfl rfl rfl
  | reply _ _ | share _ _ _ =>
    rw [happen_eq_deliverAll fun _ same => by cases same]
    exact waits.deliverAll (Occasion.told_eq_nil.mp apart)

/-- The program that waits under the ticket. -/
theorem Waits.find (waits : timeline.Waits ticket task next) :
    ∃ cancelAt, (timeline.waiting.find? fun waiting => waiting.ticket = ticket) =
      some { ticket, task, cancelAt, next } := by
  obtain ⟨cancelAt, alone⟩ := waits.alone
  refine ⟨cancelAt, ?_⟩
  have sought : (timeline.concerned ticket task).find? (fun waiting => waiting.ticket = ticket) =
      timeline.waiting.find? fun waiting => waiting.ticket = ticket := by
    rw [concerned, List.find?_filter]
    congr 1
    funext waiting
    by_cases here : waiting.ticket = ticket <;> simp [here]
  rw [← sought, alone]
  simp

variable {result : Reply → α} {reply : Reply}

/-- **A program that waits gets its reply**, with which it ends. -/
theorem Waits.deliver (waits : timeline.Waits ticket task fun reply => .done (result reply))
    (reply : Reply) :
    (timeline.deliver dispatcher surroundings ticket reply).result? task =
      some (result reply) := by
  obtain ⟨cancelAt, found⟩ := waits.find
  have unanswered := waits.unanswered
  unfold Timeline.deliver
  rw [found]
  unfold result? at unanswered ⊢
  show (timeline.results ++ [(task, result reply)]).lookup task = _
  rw [List.lookup_append, unanswered, Option.none_or]
  exact List.lookup_cons_self

/-- **An entry that has replies for a program** ends it with the first of them. -/
theorem Waits.told (waits : timeline.Waits ticket task fun reply => .done (result reply))
    {occasion : Occasion} {more : List Reply} (tells : occasion.told ticket = reply :: more) :
    (timeline.happen dispatcher surroundings occasion).result? task = some (result reply) := by
  obtain ⟨front, back, split, apart⟩ := Occasion.deliveries_of_told tells
  have opens : ∀ key, occasion ≠ .close key := by
    rintro key rfl
    cases tells
  rw [happen_eq_deliverAll opens, split, deliverAll_append]
  have still : (Timeline.deliverAll dispatcher surroundings front timeline).Waits ticket task
      fun reply => .done (result reply) := waits.deliverAll apart
  have onward := deliverAll_onward dispatcher surroundings back
    (Timeline.deliver dispatcher surroundings
      (Timeline.deliverAll dispatcher surroundings front timeline) ticket reply)
  exact result?_stays onward.results (still.deliver reply)

/-! ### The first reply decides -/

/-- Whether a program waits for a reply that is the first one on the agenda for it. -/
structure Expects (ticket task : Nat) (result : Reply → α) (due : Nat × Reply)
    (timeline : Timeline α) : Prop where
  waits : timeline.Waits ticket task fun reply => .done (result reply)
  due : (tellings ticket timeline.agenda).head? = some due
  unbatched : ∀ key, ∀ member ∈ timeline.batches.members key, member.caller ≠ ticket

variable {due : Nat × Reply}

/-- An entry of the agenda is taken: it has the reply, or the program goes on waiting. -/
theorem Expects.step (expects : timeline.Expects ticket task result due)
    (step : timeline.step? dispatcher surroundings = some after) :
    after.Expects ticket task result due ∨ after.result? task = some (result due.2) := by
  obtain ⟨time, occasion, agenda, head, rfl⟩ := step?_eq_some.mp step
  have first := expects.due
  rw [head, tellings_cons] at first
  have taken : Waits ticket task (fun reply => .done (result reply))
      { timeline with clock := time, agenda } := expects.waits.of_eq rfl rfl rfl
  cases tells : occasion.told ticket with
  | nil =>
    have apart : ∀ key, occasion = .close key →
        ∀ member ∈ timeline.batches.members key, member.caller ≠ ticket :=
      fun key _ => expects.unbatched key
    have keeps : Keeps ticket { timeline with clock := time, agenda }
        (happen dispatcher surroundings { timeline with clock := time, agenda } occasion) :=
      happen_keeps taken.known apart
    rw [tells, List.map_nil, List.nil_append] at first
    refine .inl ⟨taken.happen tells apart, keeps.tellings ▸ first, ?_⟩
    exact fun key member waits same =>
      expects.unbatched key member (keeps.only key member waits same) same
  | cons reply more =>
    rw [tells] at first
    cases first
    exact .inr (taken.told tells)

/-- **The first reply decides**, whatever the others do. -/
theorem Expects.evolves (expects : timeline.Expects ticket task result due)
    (course : Evolves dispatcher surroundings (· ≠ task) timeline after) :
    after.Expects ticket task result due ∨ after.result? task = some (result due.2) := by
  induction course with
  | refl => exact .inl expects
  | tail _ move ih =>
    rcases ih with expects | ended
    · cases move with
      | step step => exact expects.step step
      | start other cancelAt program apart =>
        have keeps := start_keeps expects.waits.known dispatcher surroundings other cancelAt
          program
        refine .inl ⟨expects.waits.start apart _ _ _ _, keeps.tellings ▸ expects.due, ?_⟩
        exact fun key member waits same =>
          expects.unbatched key member (keeps.only key member waits same) same
    · exact .inr (result?_stays move.results ended)

/-- Where nothing more is going to happen, a program has the reply that it expected. -/
theorem Expects.at_rest (expects : timeline.Expects ticket task result due)
    (course : Evolves dispatcher surroundings (· ≠ task) timeline after)
    (rests : after.agenda = []) : after.result? task = some (result due.2) := by
  rcases expects.evolves course with still | ended
  · have first := still.due
    rw [rests] at first
    cases first
  · exact ended

end Timeline

end

end FieldResolver

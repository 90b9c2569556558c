/-
**Programs that wait on a timeline.**

A timeline gives each program that waits its reply in time. If what a data source replies depends on
the request only, if no request waits for others and no template draws an identifier, then a program
on a timeline does what it does alone, whatever the other programs there do.

* `Timeline.Awaits`: each program that waits has its reply on the agenda, and goes on as it does
  alone;
* `Timeline.Due`: so all programs will have the results that they have alone; starting a program
  (`Due.start`) and taking an entry of the agenda (`Due.step`) keep it;
* `Due.advance`: the budget suffices;
* `Due.complete`, `HasBehind.result?`: in the end nothing waits and each program has its result.
-/

import FieldResolver.Proofs.Batching.Timeline
import FieldResolver.Proofs.Resolution.Starting

namespace FieldResolver

open Template (Surroundings)

/-- A program that waits and the reply that is on its way to it. -/
structure Pending (α : Type) where
  ticket : Nat
  task : Nat
  next : Reply → Program α
  /-- When the reply comes. -/
  time : Nat
  content : Reply

section

variable {α : Type}

namespace Pending

/-- The entry of the agenda. -/
def entry (pending : Pending α) : Nat × Occasion :=
  (pending.time, .reply pending.ticket pending.content)

/-- The program that waits. -/
def waiting (pending : Pending α) : Waiting α where
  ticket := pending.ticket
  task := pending.task
  cancelAt := none
  next := pending.next

/-- What is left of the program when the reply comes. -/
def rest (pending : Pending α) : Program α := pending.next pending.content

variable (dispatcher : Dispatcher) (surroundings : Surroundings)

/-- The result that the program will have. -/
def outcome (pending : Pending α) : Nat × α :=
  (pending.task, pending.rest.alone dispatcher surroundings)

/-- How many replies the program will get. -/
def replies (pending : Pending α) : Nat :=
  (pending.rest.callsAlone dispatcher surroundings).length + 1

end Pending

namespace Timeline

/-- How many replies programs will get. -/
def load (dispatcher : Dispatcher) (surroundings : Surroundings) (pending : List (Pending α)) :
    Nat :=
  (pending.map (Pending.replies dispatcher surroundings)).sum

/-- Whether the programs that wait are those of a list, each with its reply on the agenda and as it
is alone, and nothing else is going to happen. -/
structure Awaits (dispatcher : Dispatcher) (surroundings : Surroundings) (timeline : Timeline α)
    (pending : List (Pending α)) : Prop where
  sound : timeline.evaluator.Sound
  agenda : timeline.agenda.Perm (pending.map Pending.entry)
  waiting : timeline.waiting.Perm (pending.map Pending.waiting)
  known : ∀ wait ∈ pending, wait.ticket < timeline.tickets
  distinct : (pending.map Pending.ticket).Nodup
  plain : AllPlain dispatcher surroundings (pending.map Pending.rest)

variable {dispatcher : Dispatcher} {surroundings other : Surroundings} {timeline : Timeline α}
  {pending : List (Pending α)}

/-- Nothing but the evaluator, the agenda, the tickets and what waits matters. -/
theorem Awaits.of_eq {after : Timeline α}
    (awaits : timeline.Awaits dispatcher surroundings pending) (sound : after.evaluator.Sound)
    (agenda : after.agenda = timeline.agenda) (waiting : after.waiting = timeline.waiting)
    (tickets : after.tickets = timeline.tickets) :
    after.Awaits dispatcher surroundings pending where
  sound := sound
  agenda := agenda ▸ awaits.agenda
  waiting := waiting ▸ awaits.waiting
  known := tickets ▸ awaits.known
  distinct := awaits.distinct
  plain := awaits.plain

/-- A program that waits under a new ticket. -/
theorem Awaits.wait (awaits : timeline.Awaits dispatcher surroundings pending) (task delay : Nat)
    {content : Reply} {next : Reply → Program α}
    (plain : ∀ moment ∈ (next content).momentsAlone dispatcher surroundings,
      moment.Plain surroundings) :
    ((timeline.wait task none next).plan delay (.reply timeline.tickets content)).Awaits dispatcher
      surroundings
      ({ ticket := timeline.tickets, task, next, time := timeline.clock + delay, content } ::
        pending) where
  sound := awaits.sound
  agenda := (insertEntry_perm _ _ _).trans (awaits.agenda.cons _)
  waiting := List.perm_append_comm.trans (awaits.waiting.cons _)
  known := List.forall_mem_cons.mpr
    ⟨Nat.lt_succ_self _, fun wait member => Nat.lt_succ_of_lt (awaits.known wait member)⟩
  distinct := by
    refine List.nodup_cons.mpr ⟨fun member => ?_, awaits.distinct⟩
    obtain ⟨wait, isPending, same⟩ := List.mem_map.mp member
    exact Nat.lt_irrefl _ (same ▸ awaits.known wait isPending)
  plain := List.forall_mem_cons.mpr ⟨plain, awaits.plain⟩

/-- Whether programs will have results behind earlier ones, after at most a number of replies. -/
def Due (dispatcher : Dispatcher) (surroundings : Surroundings) (timeline : Timeline α)
    (earlier results : List (Nat × α)) (replies : Nat) : Prop :=
  ∃ pending ended, timeline.Awaits dispatcher surroundings pending ∧
    timeline.results = earlier ++ ended ∧
    (ended ++ pending.map (Pending.outcome dispatcher surroundings)).Perm results ∧
    load dispatcher surroundings pending ≤ replies

variable {earlier results : List (Nat × α)} {replies : Nat}

theorem Due.perm {others : List (Nat × α)}
    (due : timeline.Due dispatcher surroundings earlier results replies)
    (same : results.Perm others) :
    timeline.Due dispatcher surroundings earlier others replies := by
  obtain ⟨pending, ended, awaits, parts, account, bound⟩ := due
  exact ⟨pending, ended, awaits, parts, account.trans same, bound⟩

theorem Due.mono {more : Nat} (due : timeline.Due dispatcher surroundings earlier results replies)
    (bound : replies ≤ more) : timeline.Due dispatcher surroundings earlier results more := by
  obtain ⟨pending, ended, awaits, parts, account, least⟩ := due
  exact ⟨pending, ended, awaits, parts, account, least.trans bound⟩

/-- Whether results stand behind earlier ones, in any order. -/
def HasBehind (timeline : Timeline α) (earlier results : List (Nat × α)) : Prop :=
  ∃ ended, timeline.results = earlier ++ ended ∧ ended.Perm results

/-! ### Starting programs -/

/-- **A program that is started** ends or waits, and goes on as it does alone. -/
theorem Due.start (steady : dispatcher.Steady) (clock : other.now = surroundings.now)
    (number : Nat) {program : Program α}
    (plain : ∀ moment ∈ program.momentsAlone dispatcher surroundings, moment.Plain surroundings)
    (due : timeline.Due dispatcher surroundings earlier results replies) :
    (start dispatcher other number none program timeline).Due dispatcher surroundings earlier
      ((number, program.alone dispatcher surroundings) :: results)
      (replies + (program.callsAlone dispatcher surroundings).length) := by
  obtain ⟨pending, ended, awaits, parts, account, bound⟩ := due
  obtain ⟨_, _, started⟩ := start_started steady clock number plain timeline awaits.sound
    (Task.start program) rfl
  generalize Timeline.start dispatcher other number none program timeline = after at started ⊢
  cases started with
  | ended sound =>
    refine ⟨pending, ended ++ [(number, program.alone dispatcher surroundings)],
      awaits.of_eq sound rfl rfl rfl, ?_, ?_, bound.trans (Nat.le_add_right _ _)⟩
    · rw [← List.append_assoc, ← parts]
    · rw [List.append_assoc]
      exact List.perm_middle.trans (account.cons _)
  | @waits evaluator services _ _ next content delay sound _ plain goes fewer =>
    have served : Awaits dispatcher surroundings { timeline with evaluator, services } pending :=
      awaits.of_eq sound rfl rfl rfl
    refine ⟨_, ended, served.wait number delay plain, parts, ?_, ?_⟩
    · rw [← goes]
      exact List.perm_middle.trans (account.cons _)
    · rw [load, List.map_cons, List.sum_cons, Nat.add_comm]
      exact Nat.add_le_add bound fewer

/-! ### Taking entries of the agenda -/

theorem Awaits.perm {later : List (Pending α)}
    (awaits : timeline.Awaits dispatcher surroundings pending) (same : pending.Perm later) :
    timeline.Awaits dispatcher surroundings later where
  sound := awaits.sound
  agenda := awaits.agenda.trans (same.map _)
  waiting := awaits.waiting.trans (same.map _)
  known := fun wait member => awaits.known wait (same.mem_iff.mpr member)
  distinct := (same.map _).nodup_iff.mp awaits.distinct
  plain := fun program member => awaits.plain program ((same.map _).mem_iff.mpr member)

/-- The program that waits under a ticket. -/
theorem Awaits.find {wait : Pending α} {others : List (Pending α)}
    (awaits : timeline.Awaits dispatcher surroundings (wait :: others)) :
    (timeline.waiting.find? fun waiting => waiting.ticket = wait.ticket) = some wait.waiting := by
  cases found : timeline.waiting.find? fun waiting => waiting.ticket = wait.ticket with
  | none =>
    have here := awaits.waiting.symm.subset List.mem_cons_self
    exact absurd (decide_eq_true rfl) (List.find?_eq_none.mp found _ here)
  | some waiting =>
    have ticket : waiting.ticket = wait.ticket := by simpa using List.find?_some found
    rcases List.mem_cons.mp (awaits.waiting.subset (List.mem_of_find?_eq_some found)) with
      here | member
    · rw [here]
    · obtain ⟨other, isPending, rfl⟩ := List.mem_map.mp member
      exact absurd (List.mem_map.mpr ⟨other, isPending, ticket⟩)
        (List.nodup_cons.mp awaits.distinct).1

/-- The others go on waiting when one has its reply. -/
theorem Awaits.drop {wait : Pending α} {others : List (Pending α)} {time : Nat}
    {agenda : List (Nat × Occasion)}
    (awaits : timeline.Awaits dispatcher surroundings (wait :: others))
    (first : timeline.agenda = wait.entry :: agenda) :
    Awaits dispatcher surroundings
      { timeline with
        clock := time, agenda
        waiting := timeline.waiting.filter fun waiting => waiting.ticket ≠ wait.ticket }
      others where
  sound := awaits.sound
  agenda := (first ▸ awaits.agenda).cons_inv
  waiting := by
    refine (awaits.waiting.filter _).trans (.of_eq ?_)
    rw [List.map_cons, List.filter_cons_of_neg (by simp [Pending.waiting]), List.filter_eq_self]
    intro waiting member
    obtain ⟨other, isPending, rfl⟩ := List.mem_map.mp member
    have apart : other.ticket ≠ wait.ticket := fun same =>
      (List.nodup_cons.mp awaits.distinct).1 (same ▸ List.mem_map_of_mem isPending)
    exact decide_eq_true apart
  known := fun other member => awaits.known other (List.mem_cons_of_mem _ member)
  distinct := (List.nodup_cons.mp awaits.distinct).2
  plain := fun program member => awaits.plain program (List.mem_cons_of_mem _ member)

/-- The next entry of the agenda is a reply to a program that waits. -/
theorem Awaits.step? {wait : Pending α} {others : List (Pending α)}
    {agenda : List (Nat × Occasion)}
    (awaits : timeline.Awaits dispatcher surroundings (wait :: others))
    (first : timeline.agenda = wait.entry :: agenda) :
    timeline.step? dispatcher other =
      some (Timeline.start dispatcher other wait.task none wait.rest
        { timeline with
          clock := wait.time, agenda
          waiting := timeline.waiting.filter fun waiting => waiting.ticket ≠ wait.ticket }) := by
  rw [Timeline.step?, first]
  simp only [Pending.entry, happen, deliver, awaits.find]
  rfl

/-- **The next entry of the agenda** is a reply to a program that waits, which goes on as it does
alone; where there is none, all have their results. -/
theorem Due.step (steady : dispatcher.Steady) (clock : other.now = surroundings.now)
    (due : timeline.Due dispatcher surroundings earlier results replies) :
    timeline.step? dispatcher other = none ∧ timeline.HasBehind earlier results ∨
      ∃ after fewer, timeline.step? dispatcher other = some after ∧ fewer < replies ∧
        after.Due dispatcher surroundings earlier results fewer := by
  obtain ⟨pending, ended, awaits, parts, account, bound⟩ := due
  cases first : timeline.agenda with
  | nil =>
    have none : pending = [] :=
      List.map_eq_nil_iff.mp (List.nil_perm.mp (first ▸ awaits.agenda))
    subst none
    rw [step?, first]
    exact .inl ⟨rfl, ended, parts, (List.append_nil ended).symm ▸ account⟩
  | cons entry agenda =>
    -- All entries are replies to programs that wait, so the first one is.
    obtain ⟨wait, member, rfl⟩ :=
      List.mem_map.mp (awaits.agenda.subset (first ▸ List.mem_cons_self))
    obtain ⟨front, back, rfl⟩ := List.append_of_mem member
    have moved : (front ++ wait :: back).Perm (wait :: (front ++ back)) := List.perm_middle
    have awaits := awaits.perm moved
    have left : Due dispatcher surroundings
        { timeline with
          clock := wait.time, agenda
          waiting := timeline.waiting.filter fun waiting => waiting.ticket ≠ wait.ticket }
        earlier (ended ++ (front ++ back).map (Pending.outcome dispatcher surroundings))
        (load dispatcher surroundings (front ++ back)) :=
      ⟨_, ended, awaits.drop first, parts, .refl _, Nat.le_refl _⟩
    have goes := left.start steady clock wait.task (awaits.plain wait.rest List.mem_cons_self)
    refine .inr ⟨_, _, awaits.step? first, ?_, goes.perm ?_⟩
    · have all := (moved.map (Pending.replies dispatcher surroundings)).sum_nat
      rw [List.map_cons, List.sum_cons, Pending.replies] at all
      rw [load] at bound ⊢
      omega
    · have same : (ended ++ (wait :: (front ++ back)).map
            (Pending.outcome dispatcher surroundings)).Perm
          (ended ++ (front ++ wait :: back).map (Pending.outcome dispatcher surroundings)) :=
        (moved.symm.map _).append_left _
      exact (List.perm_middle.symm.trans same).trans account

/-- **Entries of the agenda are taken** until programs have ended, if the budget is as large as the
number of replies. -/
theorem Due.advance (steady : dispatcher.Steady) (clock : other.now = surroundings.now)
    (finished : Timeline α → Bool) {budget : Nat}
    (due : timeline.Due dispatcher surroundings earlier results replies)
    (enough : replies < budget) :
    (advance dispatcher other finished budget timeline).Due dispatcher surroundings earlier results
        replies ∧
      (finished (advance dispatcher other finished budget timeline) = true ∨
        (advance dispatcher other finished budget timeline).HasBehind earlier results) := by
  induction budget generalizing timeline replies with
  | zero => omega
  | succ budget ih =>
    rw [Timeline.advance]
    split
    · exact ⟨due, .inl ‹_›⟩
    · obtain ⟨last, all⟩ | ⟨after, fewer, step, less, further⟩ := due.step steady clock
      · rw [last]
        exact ⟨due, .inr all⟩
      · rw [step]
        have goes := ih further (by omega)
        exact ⟨goes.1.mono less.le, goes.2⟩

theorem lt_budget (timeline : Timeline α) {calls : Nat} (bound : replies ≤ calls) :
    replies < timeline.budget calls := by
  rw [budget]
  omega

/-- Programs are started one after another. -/
theorem Due.startAll (steady : dispatcher.Steady) (clock : other.now = surroundings.now)
    {programs : List (Nat × Option Nat × Program α)}
    (patient : ∀ entry ∈ programs, entry.2.1 = none)
    (plain : AllPlain dispatcher surroundings (programs.map fun entry => entry.2.2))
    (due : timeline.Due dispatcher surroundings earlier results replies) :
    (startAll dispatcher other programs timeline).Due dispatcher surroundings earlier
      (programs.map (fun entry => (entry.1, entry.2.2.alone dispatcher surroundings)) ++ results)
      (replies + (programs.map fun entry =>
        (entry.2.2.callsAlone dispatcher surroundings).length).sum) := by
  induction programs generalizing timeline results replies with
  | nil => exact due
  | cons entry rest ih =>
    obtain ⟨task, cancelAfter, program⟩ := entry
    obtain ⟨rfl, others⟩ := List.forall_mem_cons.mp patient
    have started := due.start steady clock task (plain program List.mem_cons_self)
    have all := ih others (fun program member => plain program (List.mem_cons_of_mem _ member))
      started
    refine (all.perm List.perm_middle).mono ?_
    rw [List.map_cons, List.sum_cons, Nat.add_assoc]

/-! ### Results -/

/-- **Nothing waits any more** when all programs have ended. -/
theorem Due.complete (due : timeline.Due dispatcher surroundings earlier results replies)
    (distinct : (results.map Prod.fst).Nodup)
    (new : ∀ entry ∈ results, ∀ before ∈ earlier, before.1 ≠ entry.1)
    (all : (∀ entry ∈ results, (timeline.result? entry.1).isSome) ∨
      timeline.HasBehind earlier results) :
    timeline.Awaits dispatcher surroundings [] ∧ timeline.HasBehind earlier results := by
  obtain ⟨pending, ended, awaits, parts, account, bound⟩ := due
  have none : pending = [] := by
    rcases all with answered | ⟨others, same, perm⟩
    · rw [List.eq_nil_iff_forall_not_mem]
      intro wait member
      have outcome : wait.outcome dispatcher surroundings ∈
          pending.map (Pending.outcome dispatcher surroundings) := List.mem_map_of_mem member
      have expected := account.subset (List.mem_append_right _ outcome)
      obtain ⟨value, found⟩ := Option.isSome_iff_exists.mp (answered _ expected)
      obtain ⟨front, back, split, _⟩ := List.lookup_eq_some_iff.mp found
      -- The number of a program that waits has no result, new or old.
      have there : ((wait.outcome dispatcher surroundings).1, value) ∈ earlier ++ ended := by
        rw [← parts, split]
        exact List.mem_append_right _ List.mem_cons_self
      rcases List.mem_append.mp there with before | here
      · exact new _ expected _ before rfl
      · have keys := (account.map Prod.fst).nodup_iff.mpr distinct
        rw [List.map_append, List.nodup_append'] at keys
        exact keys.2.2 (List.mem_map.mpr ⟨_, here, rfl⟩) (List.mem_map.mpr ⟨_, outcome, rfl⟩)
    · have ends : ended = others := List.append_cancel_left (parts.symm.trans same)
      have lengths := (account.trans perm.symm).length_eq
      rw [List.length_append, ends, List.length_map] at lengths
      exact List.length_eq_zero_iff.mp (by omega)
  subst none
  exact ⟨awaits, ended, parts, (List.append_nil ended).symm ▸ account⟩

theorem lookup_of_nodup {entries : List (Nat × α)} (distinct : (entries.map Prod.fst).Nodup)
    {task : Nat} {value : α} (member : (task, value) ∈ entries) :
    entries.lookup task = some value := by
  induction entries with
  | nil => cases member
  | cons entry rest ih =>
    obtain ⟨absent, others⟩ := List.nodup_cons.mp distinct
    rcases List.mem_cons.mp member with rfl | member
    · exact List.lookup_cons_self
    · have apart : (task == entry.1) = false :=
        beq_false_of_ne fun same => absent (same ▸ List.mem_map_of_mem member)
      rw [List.lookup_cons, apart]
      exact ih others member

/-- A program has the result that it was to have. -/
theorem HasBehind.result? (behind : timeline.HasBehind earlier results)
    (distinct : (results.map Prod.fst).Nodup)
    (new : ∀ entry ∈ results, ∀ before ∈ earlier, before.1 ≠ entry.1) {task : Nat} {value : α}
    (member : (task, value) ∈ results) : timeline.result? task = some value := by
  obtain ⟨ended, parts, perm⟩ := behind
  have absent : earlier.lookup task = none := by
    rw [List.lookup_eq_none_iff]
    exact fun before isEarlier => bne_iff_ne.mpr (new _ member before isEarlier).symm
  rw [Timeline.result?, parts, List.lookup_append, absent]
  exact lookup_of_nodup ((perm.map _).nodup_iff.mpr distinct) (perm.mem_iff.mpr member)

end Timeline

end

end FieldResolver

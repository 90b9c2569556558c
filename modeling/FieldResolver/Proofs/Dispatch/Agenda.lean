/-
**What an agenda has for whom.**

The entries of an agenda bring replies to programs that wait, and an entry that is planned comes in
behind all that are not later. So what a ticket is told first can be read off the agenda.

* `Occasion.deliveries`: the replies that an occasion brings, each with its ticket;
* `Timeline.tellings`: what an agenda has for a ticket; `tellings_insertEntry` says where a new
  entry comes in, and `tellings_insertEntry_of_apart` that others do not see it;
* `Occasion.told_share`: a member of a batch is told its share and nothing else;
* `Reached.known`, `Reached.members_known`, `Reached.waiting_known`: nothing concerns tickets that
  were not given out yet;
* `Reached.close_unique`, `Reached.exists_close`: an open batch is closed at one time.
-/

import FieldResolver.Proofs.Batching.Timeline

namespace FieldResolver

open Batching
open Template (Surroundings)

/-! ### Occasions -/

namespace Occasion

/-- The replies that an occasion brings, each with its ticket. -/
def deliveries : Occasion → List (Nat × Reply)
  | .reply ticket content => [(ticket, content)]
  | .close _ => []
  | .share key tickets content =>
    tickets.zip (Batch.shares key.source tickets.length content)

/-- What an occasion tells a ticket. -/
def told (ticket : Nat) (occasion : Occasion) : List Reply :=
  (occasion.deliveries.filter fun delivery => delivery.1 = ticket).map Prod.snd

variable {occasion : Occasion} {ticket : Nat}

/-- An occasion tells nothing to a ticket that it has no replies for. -/
theorem told_eq_nil :
    occasion.told ticket = [] ↔ ∀ delivery ∈ occasion.deliveries, delivery.1 ≠ ticket := by
  simp [told, List.filter_eq_nil_iff]

/-- The first reply that an occasion has for a ticket. -/
theorem deliveries_of_told {reply : Reply} {more : List Reply}
    (tells : occasion.told ticket = reply :: more) :
    ∃ front back, occasion.deliveries = front ++ (ticket, reply) :: back ∧
      ∀ delivery ∈ front, delivery.1 ≠ ticket := by
  obtain ⟨⟨first, _⟩, others, chosen, rfl, -⟩ := List.map_eq_cons_iff.mp tells
  obtain ⟨front, back, split, apart, here, -⟩ := List.filter_eq_cons_iff.mp chosen
  rw [decide_eq_true_eq] at here
  cases here
  exact ⟨front, back, split, by simpa using apart⟩

/-- The entry of a list beside the one place of a number. -/
theorem filter_zip_of_nodup {tickets : List Nat} {shares : List Reply} {place : Nat}
    {share : Reply} (distinct : tickets.Nodup) (here : tickets[place]? = some ticket)
    (own : shares[place]? = some share) :
    ((tickets.zip shares).filter fun delivery => delivery.1 = ticket) = [(ticket, share)] := by
  induction tickets generalizing shares place with
  | nil => cases here
  | cons first rest ih =>
    obtain ⟨absent, others⟩ := List.nodup_cons.mp distinct
    cases shares with
    | nil => cases own
    | cons head tail =>
      cases place with
      | zero =>
        cases here
        cases own
        rw [List.zip_cons_cons, List.filter_cons_of_pos (by simp)]
        congr 1
        rw [List.filter_eq_nil_iff]
        rintro ⟨other, reply⟩ member same
        rw [decide_eq_true_eq] at same
        exact absent (same ▸ (List.of_mem_zip member).1)
      | succ place =>
        rw [List.getElem?_cons_succ] at here own
        have apart : first ≠ ticket := fun same => absent (same ▸ List.mem_of_getElem? here)
        rw [List.zip_cons_cons, List.filter_cons_of_neg (by simpa using apart)]
        exact ih others here own

/-- **A member of a batch is told its share** and nothing else. -/
theorem told_share {key : BatchKey} {tickets : List Nat} {content : Reply} {place : Nat}
    {share : Reply} (distinct : tickets.Nodup) (here : tickets[place]? = some ticket)
    (own : (Batch.shares key.source tickets.length content)[place]? = some share) :
    (Occasion.share key tickets content).told ticket = [share] := by
  unfold told deliveries
  rw [filter_zip_of_nodup distinct here own]
  rfl

end Occasion

namespace Timeline

/-! ### Agendas -/

/-- What an agenda has for a ticket, and when. -/
def tellings (ticket : Nat) (agenda : List (Nat × Occasion)) : List (Nat × Reply) :=
  agenda.flatMap fun entry => (entry.2.told ticket).map (entry.1, ·)

/-- Whether an agenda is in order of time. -/
def InOrder (agenda : List (Nat × Occasion)) : Prop :=
  agenda.Pairwise fun first second => first.1 ≤ second.1

section

variable {agenda : List (Nat × Occasion)} {time ticket : Nat} {occasion : Occasion}

theorem tellings_cons (ticket time : Nat) (occasion : Occasion) (agenda : List (Nat × Occasion)) :
    tellings ticket ((time, occasion) :: agenda) =
      (occasion.told ticket).map (time, ·) ++ tellings ticket agenda := rfl

/-- What an agenda has for a ticket comes at the time of an entry. -/
theorem mem_of_mem_tellings {telling : Nat × Reply} (member : telling ∈ tellings ticket agenda) :
    ∃ entry ∈ agenda, entry.1 = telling.1 ∧ telling.2 ∈ entry.2.told ticket := by
  obtain ⟨entry, inAgenda, tells⟩ := List.mem_flatMap.mp member
  obtain ⟨reply, told, rfl⟩ := List.mem_map.mp tells
  exact ⟨entry, inAgenda, rfl, told⟩

theorem mem_insertEntry {entry : Nat × Occasion} :
    entry ∈ insertEntry time occasion agenda ↔ entry = (time, occasion) ∨ entry ∈ agenda := by
  rw [(insertEntry_perm time occasion agenda).mem_iff, List.mem_cons]

/-- An entry comes in where it keeps the order. -/
theorem InOrder.insertEntry (ordered : InOrder agenda) (time : Nat) (occasion : Occasion) :
    InOrder (insertEntry time occasion agenda) := by
  induction agenda with
  | nil => exact List.pairwise_singleton _ _
  | cons entry rest ih =>
    obtain ⟨other, occupied⟩ := entry
    obtain ⟨first, others⟩ := List.pairwise_cons.mp ordered
    rw [Timeline.insertEntry]
    split
    · refine List.pairwise_cons.mpr ⟨fun entry member => ?_, ih others⟩
      rcases mem_insertEntry.mp member with rfl | inRest
      · assumption
      · exact first entry inRest
    · rename_i later
      refine List.pairwise_cons.mpr ⟨fun entry member => ?_, ordered⟩
      have before : time ≤ other := Nat.le_of_not_le later
      rcases List.mem_cons.mp member with rfl | inRest
      · exact before
      · exact Nat.le_trans before (first entry inRest)

/-- A ticket does not see what is planned for others. -/
theorem tellings_insertEntry_of_apart (apart : occasion.told ticket = []) (time : Nat)
    (agenda : List (Nat × Occasion)) :
    tellings ticket (insertEntry time occasion agenda) = tellings ticket agenda := by
  induction agenda with
  | nil => rw [insertEntry, tellings_cons, apart, List.map_nil, List.nil_append]
  | cons entry rest ih =>
    obtain ⟨other, occupied⟩ := entry
    rw [insertEntry]
    split
    · rw [tellings_cons, tellings_cons, ih]
    · rw [tellings_cons, apart, List.map_nil, List.nil_append]

/-- All that an agenda has comes at the time of its first entry or later. -/
theorem lt_of_mem_tellings {first : Nat × Occasion} (ordered : InOrder (first :: agenda))
    (later : time < first.1) {telling : Nat × Reply}
    (member : telling ∈ tellings ticket (first :: agenda)) : time < telling.1 := by
  obtain ⟨entry, inAgenda, same, -⟩ := mem_of_mem_tellings member
  rw [← same]
  rcases List.mem_cons.mp inAgenda with rfl | behind
  · exact later
  · exact Nat.lt_of_lt_of_le later ((List.pairwise_cons.mp ordered).1 entry behind)

/-- **Where a new entry comes in**: behind all that an agenda has for a ticket and is not later. -/
theorem tellings_insertEntry (ordered : InOrder agenda) (ticket time : Nat)
    (occasion : Occasion) :
    tellings ticket (insertEntry time occasion agenda) =
      (tellings ticket agenda).filter (fun telling => telling.1 ≤ time) ++
        ((occasion.told ticket).map (time, ·) ++
          (tellings ticket agenda).filter fun telling => time < telling.1) := by
  induction agenda with
  | nil => simp [insertEntry, tellings]
  | cons entry rest ih =>
    obtain ⟨other, occupied⟩ := entry
    rw [insertEntry]
    split
    · rename_i before
      have all : ((occupied.told ticket).map (other, ·)).filter (fun telling => telling.1 ≤ time) =
          (occupied.told ticket).map (other, ·) := by
        simp [List.filter_eq_self, before]
      have none : ((occupied.told ticket).map (other, ·)).filter
          (fun telling => time < telling.1) = [] := by
        simp [List.filter_eq_nil_iff, before]
      rw [tellings_cons, tellings_cons, ih (List.pairwise_cons.mp ordered).2, List.filter_append,
        List.filter_append, all, none, List.append_assoc, List.nil_append]
    · -- All that the agenda has comes later.
      rename_i later
      have late : ∀ telling ∈ tellings ticket ((other, occupied) :: rest), time < telling.1 :=
        fun telling member => lt_of_mem_tellings ordered (Nat.lt_of_not_le later) member
      have none : (tellings ticket ((other, occupied) :: rest)).filter
          (fun telling => telling.1 ≤ time) = [] := by
        rw [List.filter_eq_nil_iff]
        intro telling member
        simpa using late telling member
      have all : (tellings ticket ((other, occupied) :: rest)).filter
          (fun telling => time < telling.1) = tellings ticket ((other, occupied) :: rest) := by
        rw [List.filter_eq_self]
        intro telling member
        simpa using late telling member
      rw [none, all, List.nil_append, tellings_cons]

end

/-! ### Tickets that were not given out yet -/

section

variable {α : Type} {dispatcher : Dispatcher} {surroundings : Surroundings}
  {timeline : Timeline α}

/-- Whoever is in an open batch has a ticket. -/
theorem Reached.members_known (reached : timeline.Reached dispatcher surroundings) {key : BatchKey}
    {member : BatchMember} (waits : member ∈ timeline.batches.members key) :
    member.caller < timeline.tickets := by
  obtain ⟨s, reachable, follows⟩ := reached.follows
  rw [follows.batches] at waits
  have accepted := mem_acceptedFor.mp (reachable.consistent.order key ▸
    List.mem_append_right (s.calledFor key) waits)
  exact follows.accepted _ accepted

/-- Whoever waits has a ticket. -/
theorem Reached.waiting_known (reached : timeline.Reached dispatcher surroundings)
    {waiting : Waiting α} (waits : waiting ∈ timeline.waiting) :
    waiting.ticket < timeline.tickets := by
  obtain ⟨s, -, follows⟩ := reached.follows
  exact (follows.waiting waiting waits).1

/-- Replies are for tickets that were given out. -/
theorem Reached.known (reached : timeline.Reached dispatcher surroundings)
    {entry : Nat × Occasion} (planned : entry ∈ timeline.agenda) {delivery : Nat × Reply}
    (brings : delivery ∈ entry.2.deliveries) : delivery.1 < timeline.tickets := by
  obtain ⟨s, reachable, follows⟩ := reached.follows
  obtain ⟨time, occasion⟩ := entry
  cases occasion with
  | reply ticket content =>
    rw [List.mem_singleton.mp brings]
    exact (follows.own _ planned ticket content rfl).1
  | close key => cases brings
  | share key tickets content =>
    obtain ⟨pairs, left, right, fit⟩ := follows.flights
    have flight : (key, tickets, content) ∈ timeline.sharing :=
      List.mem_filterMap.mpr ⟨_, planned, rfl⟩
    obtain ⟨⟨_, call⟩, inPairs, rfl⟩ := List.mem_map.mp (left.symm.subset flight)
    obtain ⟨inCalls, -⟩ := List.mem_filter.mp (right.subset (List.mem_map_of_mem inPairs))
    have callers : tickets = call.callers := (fit _ inPairs).2.1
    have inCallers : delivery.1 ∈ call.callers := callers ▸ (List.of_mem_zip brings).1
    obtain ⟨member, inCall, same⟩ := List.mem_map.mp inCallers
    rw [← same]
    have came := (reachable.consistent.members_sublist inCalls).subset inCall
    exact follows.accepted _ (mem_acceptedFor.mp came)

/-- **A ticket that was not given out yet** is told nothing. -/
theorem Reached.tellings_of_new (reached : timeline.Reached dispatcher surroundings) {ticket : Nat}
    (new : timeline.tickets ≤ ticket) : tellings ticket timeline.agenda = [] := by
  refine List.flatMap_eq_nil_iff.mpr fun entry planned => ?_
  rw [List.map_eq_nil_iff, Occasion.told_eq_nil]
  intro delivery brings same
  exact Nat.not_le.mpr (reached.known planned brings) (same ▸ new)

/-! ### When batches are closed -/

/-- Nobody is in a batch twice. -/
theorem Reached.members_nodup (reached : timeline.Reached dispatcher surroundings)
    {key : BatchKey} : ((timeline.batches.members key).map BatchMember.caller).Nodup := by
  obtain ⟨s, reachable, follows⟩ := reached.follows
  rw [follows.batches]
  have consistent := reachable.consistent
  have distinct := consistent.callers_nodup
  rw [List.map_append] at distinct
  have table := (List.nodup_append.mp distinct).2.1
  have members := table.sublist ((s.batches.members_sublist key).map _)
  rwa [List.map_map] at members

/-- **An open batch is closed once.** -/
theorem Reached.close_unique (reached : timeline.Reached dispatcher surroundings) {key : BatchKey}
    {time other : Nat} {agenda : List (Nat × Occasion)}
    (head : timeline.agenda = (time, .close key) :: agenda) :
    (other, Occasion.close key) ∉ agenda := by
  obtain ⟨s, reachable, follows⟩ := reached.follows
  have timers := follows.timers.nodup_iff.mpr reachable.consistent.distinct
  rw [closing, head] at timers
  intro planned
  have again : key ∈ agenda.filterMap fun entry => entry.2.closes? :=
    List.mem_filterMap.mpr ⟨_, planned, rfl⟩
  exact (List.nodup_cons.mp timers).1 again

/-- A batch that is open is going to be closed. -/
theorem Reached.exists_close (reached : timeline.Reached dispatcher surroundings) {key : BatchKey}
    (opened : timeline.batches.isOpen key = true) :
    ∃ time, (time, Occasion.close key) ∈ timeline.agenda := by
  obtain ⟨s, reachable, follows⟩ := reached.follows
  rw [Batches.isOpen_iff, follows.batches, ← reachable.consistent.windows] at opened
  obtain ⟨⟨time, occasion⟩, planned, closes⟩ :=
    List.mem_filterMap.mp (follows.timers.symm.subset opened)
  cases occasion with
  | close other =>
    cases closes
    exact ⟨time, planned⟩
  | _ => cases closes

end

end Timeline

end FieldResolver

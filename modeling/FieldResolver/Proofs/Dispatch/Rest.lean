/-
**Every timeline comes to rest.**

A program that gets its reply goes on as a part of itself, and it may then wait again, under another
ticket; so what is left to do becomes less in the order of multisets. An entry that reaches nobody
makes the agenda shorter, and one that closes a batch is replaced by at most one reply.

* `Behind`: what a program that waits may come to wait for next, a well-founded relation;
* `deliver_fewer`: a reply that reaches its program leaves less behind;
* `step_lighter`, `wellFounded_lighter`: every entry that is taken leaves less to do;
* `comes_to_rest`: so nothing is left on the agenda in the end.
-/

import FieldResolver.Proofs.Dispatch.Moves
import Mathlib.Logic.Hydra

namespace FieldResolver

open Relation
open Template (Surroundings)

section

variable {α : Type}

/-! ### Parts of programs -/

/-- Whether a program that waits may come to wait again and then go on in a way. -/
def Behind (later next : Reply → Program α) : Prop := ∃ reply, (next reply).Comes later

/-- What a program comes to has nothing endless behind it. -/
theorem Program.Comes.acc {program : Program α} {next : Reply → Program α}
    (comes : program.Comes next) : Acc Behind next := by
  induction program generalizing next with
  | done result => cases comes
  | evaluate source context others ih =>
    cases comes with
    | behindEvaluation outcome after behind => exact ih outcome after behind
  | isCancelled others ih =>
    cases comes with
    | behindLook stopped behind => exact ih stopped behind
  | call call others ih =>
    cases comes with
    | call =>
      refine .intro _ fun later behind => ?_
      obtain ⟨reply, comes⟩ := behind
      exact ih reply comes
    | behindCall reply behind => exact ih reply behind

theorem wellFounded_behind : WellFounded (Behind (α := α)) := by
  refine ⟨fun next => .intro next fun later behind => ?_⟩
  obtain ⟨reply, comes⟩ := behind
  exact comes.acc

namespace Timeline

variable {dispatcher : Dispatcher} {surroundings : Surroundings}
  {timeline before middle after : Timeline α}

/-! ### What is left to do -/

/-- How the programs that wait go on. -/
def pending (timeline : Timeline α) : Multiset (Reply → Program α) :=
  timeline.waiting.map Waiting.next

/-- How many entries an entry of the agenda stands for: a batch has a reply as well. -/
def weight (occasion : Occasion) : Nat :=
  match occasion with
  | .close _ => 2
  | _ => 1

/-- How many entries there can be if no program goes on. -/
def burden (timeline : Timeline α) : Nat :=
  (timeline.agenda.map fun entry => weight entry.2).sum

/-- Whether there is less to do for the programs that wait. -/
def Fewer (after before : Timeline α) : Prop :=
  TransGen (CutExpand Behind) after.pending before.pending

/-- Whether there is less to do: less for the programs, or the same and fewer entries. -/
def Lighter (after before : Timeline α) : Prop :=
  Fewer after before ∨ after.pending = before.pending ∧ after.burden < before.burden

/-- **Nothing becomes less forever.** -/
theorem wellFounded_lighter : WellFounded (Lighter (α := α)) := by
  have parts : WellFounded (Prod.Lex (TransGen (CutExpand (Behind (α := α)))) (· < ·)) :=
    WellFounded.prod_lex wellFounded_behind.cutExpand.transGen Nat.lt_wfRel.wf
  refine Subrelation.wf ?_ (InvImage.wf (fun timeline => (timeline.pending, timeline.burden)) parts)
  intro after before lighter
  rcases lighter with fewer | ⟨same, less⟩
  · exact .left _ _ fewer
  · show Prod.Lex _ _ (after.pending, after.burden) (before.pending, before.burden)
    rw [same]
    exact .right _ less

/-- Dropping programs leaves less to do. -/
theorem cutExpand_of_le {less all : Multiset (Reply → Program α)} (part : less ≤ all) :
    ReflTransGen (CutExpand Behind) less all := by
  obtain ⟨dropped, rfl⟩ := Multiset.le_iff_exists_add.mp part
  induction dropped using Multiset.induction with
  | empty => rw [add_zero]
  | cons next dropped ih =>
    refine (ih (Multiset.le_add_right _ _)).tail ?_
    exact ⟨0, next, nofun, by rw [add_zero, add_assoc, add_comm dropped, Multiset.singleton_add]⟩

/-- What a program that is started adds is behind it. -/
theorem start_pending (dispatcher : Dispatcher) (surroundings : Surroundings) (task : Nat)
    (cancelAt : Option Nat) (program : Program α) (timeline : Timeline α) :
    ∃ more : Multiset (Reply → Program α), (∀ next ∈ more, program.Comes next) ∧
      (start dispatcher surroundings task cancelAt program timeline).pending =
        timeline.pending + more := by
  have begun := start_begun dispatcher surroundings task cancelAt program timeline
  generalize start dispatcher surroundings task cancelAt program timeline = after at begun ⊢
  have waits : ∀ {next}, program.Comes next → ∀ other ∈ ({next} : Multiset (Reply → Program α)),
      program.Comes other := fun comes other member => Multiset.mem_singleton.mp member ▸ comes
  have pending : ∀ ticket next, pending
      { timeline with waiting := timeline.waiting ++ [{ ticket, task, cancelAt, next }] } =
        timeline.pending + {next} := by
    intro ticket next
    simp only [Timeline.pending, List.map_append, ← Multiset.coe_add]
    rfl
  cases begun with
  | ended result => exact ⟨0, nofun, (add_zero _).symm⟩
  | waits delay content comes => exact ⟨_, waits comes, pending _ _⟩
  | joins key request comes =>
    refine ⟨_, waits comes, ?_⟩
    apply joinBatch_cases (fun after => after.pending = timeline.pending + _)
    · exact pending timeline.tickets _
    · exact fun between same => same
    · exact fun between delay same => same

/-- **A reply** reaches nobody, or leaves less to do. -/
theorem deliver_fewer (dispatcher : Dispatcher) (surroundings : Surroundings) (ticket : Nat)
    (reply : Reply) (timeline : Timeline α) :
    timeline.deliver dispatcher surroundings ticket reply = timeline ∨
      Fewer (timeline.deliver dispatcher surroundings ticket reply) timeline := by
  unfold deliver
  split
  · exact .inl rfl
  · rename_i waiting found
    refine .inr ?_
    let left : Timeline α :=
      { timeline with waiting := timeline.waiting.filter fun other => other.ticket ≠ ticket }
    obtain ⟨more, behind, pending⟩ := start_pending dispatcher surroundings waiting.task
      waiting.cancelAt (waiting.next reply) left
    -- The program itself is dropped, and what it comes to is behind it.
    have here : waiting.ticket = ticket := by simpa using List.find?_some found
    have dropped : left.pending + {waiting.next} ≤ timeline.pending := by
      have parts := List.filter_append_perm (fun other : Waiting α => other.ticket ≠ ticket)
        timeline.waiting
      have among : waiting ∈ timeline.waiting.filter fun other => !decide (other.ticket ≠ ticket) :=
        List.mem_filter.mpr ⟨List.mem_of_find?_eq_some found, by simp [here]⟩
      have alone : {waiting.next} ≤ Multiset.ofList
          ((timeline.waiting.filter fun other => !decide (other.ticket ≠ ticket)).map
            Waiting.next) := by
        rw [Multiset.singleton_le, Multiset.mem_coe]
        exact List.mem_map_of_mem among
      refine (add_le_add_right alone left.pending).trans (le_of_eq ?_)
      show Multiset.ofList (left.waiting.map Waiting.next) + _ = _
      rw [Multiset.coe_add, ← List.map_append]
      exact Multiset.coe_eq_coe.mpr (parts.map Waiting.next)
    refine TransGen.trans_left (.single ?_) (cutExpand_of_le dropped)
    refine ⟨more, waiting.next, fun next member => ⟨reply, behind next member⟩, ?_⟩
    rw [pending]
    exact add_right_comm _ _ _

/-- Replies reach nobody, or leave less to do. -/
theorem deliverAll_fewer (dispatcher : Dispatcher) (surroundings : Surroundings)
    (deliveries : List (Nat × Reply)) (timeline : Timeline α) :
    deliverAll dispatcher surroundings deliveries timeline = timeline ∨
      Fewer (deliverAll dispatcher surroundings deliveries timeline) timeline := by
  refine deliverAll_related (fun before after => after = before ∨ Fewer after before)
    (fun _ => .inl rfl) ?_ (deliver_fewer dispatcher surroundings) deliveries timeline
  rintro before middle after (rfl | first) (rfl | second)
  · exact .inl rfl
  · exact .inr second
  · exact .inr first
  · exact .inr (second.trans first)

/-- Planning something is as heavy as what is planned. -/
theorem burden_plan (timeline : Timeline α) (delay : Nat) (occasion : Occasion) :
    (timeline.plan delay occasion).burden = timeline.burden + weight occasion := by
  have sums := ((insertEntry_perm (timeline.clock + delay) occasion timeline.agenda).map
    fun entry => weight entry.2).sum_nat
  rw [List.map_cons, List.sum_cons] at sums
  exact sums.trans (Nat.add_comm _ _)

/-- **Every entry that is taken leaves less to do.** -/
theorem step_lighter (step : timeline.step? dispatcher surroundings = some after) :
    Lighter after timeline := by
  obtain ⟨time, occasion, agenda, head, rfl⟩ := step?_eq_some.mp step
  let taken : Timeline α := { timeline with clock := time, agenda }
  have lighter : timeline.burden = weight occasion + taken.burden := by
    show (timeline.agenda.map _).sum = _
    rw [head]
    rfl
  have bound : 0 < weight occasion := by
    unfold weight
    split <;> omega
  show Lighter (taken.happen dispatcher surroundings occasion) timeline
  cases occasion with
  | reply _ _ | share _ _ _ =>
    rw [happen_eq_deliverAll fun _ same => by cases same]
    rcases deliverAll_fewer dispatcher surroundings _ taken with same | fewer
    · rw [same]
      exact .inr ⟨rfl, by omega⟩
    · exact .inl fewer
  | close key =>
    show Lighter (taken.closeBatch dispatcher surroundings key) timeline
    have less : taken.burden < timeline.burden := by omega
    apply closeBatch_cases (fun after => Lighter after timeline)
    · exact .inr ⟨rfl, less⟩
    · intro services content
      rcases deliverAll_fewer dispatcher surroundings _ (taken.closed key services)
        with same | fewer
      · rw [same]
        exact .inr ⟨rfl, less⟩
      · exact .inl fewer
    · intro services delay content
      refine .inr ⟨rfl, ?_⟩
      rw [burden_plan, lighter]
      show taken.burden + 1 < 2 + taken.burden
      omega

/-- **Every timeline comes to rest** when its entries are taken one after another and no further
program is started. -/
theorem comes_to_rest (dispatcher : Dispatcher) (surroundings : Surroundings)
    (timeline : Timeline α) :
    ∃ rest, Evolves dispatcher surroundings (fun _ => False) timeline rest ∧
      rest.agenda = [] := by
  induction timeline using wellFounded_lighter.induction with
  | h timeline ih =>
    cases step : timeline.step? dispatcher surroundings with
    | none =>
      refine ⟨timeline, .refl, ?_⟩
      unfold step? at step
      split at step
      · assumption
      · cases step
    | some after =>
      obtain ⟨rest, course, rests⟩ := ih after (step_lighter step)
      exact ⟨rest, course.head (.step step), rests⟩

end Timeline

end

end FieldResolver

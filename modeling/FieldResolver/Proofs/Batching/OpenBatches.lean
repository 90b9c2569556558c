/-
**The table of open batches.**

What joining and closing do to the requests in the table and to its keys.

* `requests_join`, `requests_close`: no request is lost and none is there twice;
* `keys_join`, `keys_close`: a batch is in the table from its first request until it is closed.
-/

import FieldResolver.Dispatch.Batch
import Mathlib.Data.List.Nodup

namespace FieldResolver

namespace Batches

/-- The requests in the open batches, each with its key. -/
def requests (batches : Batches) : List (BatchKey × BatchMember) :=
  batches.flatMap fun batch => batch.2.map (batch.1, ·)

theorem requests_cons (key : BatchKey) (list : List BatchMember) (rest : Batches) :
    requests ((key, list) :: rest) = list.map (key, ·) ++ requests rest := rfl

/-- Joining adds a request. -/
theorem requests_join (batches : Batches) (key : BatchKey) (member : BatchMember) :
    (batches.join key member).requests.Perm (batches.requests ++ [(key, member)]) := by
  induction batches with
  | nil => exact .refl _
  | cons batch rest ih =>
    obtain ⟨k, list⟩ := batch
    by_cases same : k = key
    · subst same
      rw [join, if_pos rfl, requests_cons, requests_cons, List.map_append, List.append_assoc,
        List.append_assoc]
      have swapped : ([(k, member)] ++ requests rest).Perm (requests rest ++ [(k, member)]) :=
        List.perm_append_comm
      exact swapped.append_left _
    · rw [join, if_neg same, requests_cons, requests_cons, List.append_assoc]
      exact ih.append_left _

/-- A batch that is not in the table has no members. -/
theorem members_of_not_mem {batches : Batches} {key : BatchKey}
    (absent : key ∉ batches.map Prod.fst) : batches.members key = [] := by
  induction batches with
  | nil => rfl
  | cons batch rest ih =>
    obtain ⟨k, list⟩ := batch
    rw [List.map_cons, List.mem_cons, not_or] at absent
    rw [members, if_neg (Ne.symm absent.1)]
    exact ih absent.2

/-- Closing a batch that is not in the table changes nothing. -/
theorem close_of_not_mem {batches : Batches} {key : BatchKey}
    (absent : key ∉ batches.map Prod.fst) : batches.close key = batches := by
  induction batches with
  | nil => rfl
  | cons batch rest ih =>
    obtain ⟨k, list⟩ := batch
    rw [List.map_cons, List.mem_cons, not_or] at absent
    rw [close, if_neg (Ne.symm absent.1), ih absent.2]

/-- Closing a batch takes its requests out of the table. -/
theorem requests_close (batches : Batches) (key : BatchKey)
    (distinct : (batches.map Prod.fst).Nodup) :
    batches.requests.Perm
      ((batches.members key).map (key, ·) ++ (batches.close key).requests) := by
  induction batches with
  | nil => exact .refl _
  | cons batch rest ih =>
    obtain ⟨k, list⟩ := batch
    rw [List.map_cons, List.nodup_cons] at distinct
    by_cases same : k = key
    · subst same
      rw [members, if_pos rfl, close, if_pos rfl, close_of_not_mem distinct.1, requests_cons]
    · rw [members, if_neg same, close, if_neg same, requests_cons, requests_cons]
      have below := (ih distinct.2).append_left (list.map (k, ·))
      rw [← List.append_assoc] at below ⊢
      exact below.trans (List.perm_append_comm.append_right _)

/-- Whether a batch is open is whether the table has its key. -/
theorem isOpen_iff (batches : Batches) (key : BatchKey) :
    batches.isOpen key = true ↔ key ∈ batches.map Prod.fst := by
  simp [isOpen]

/-- Joining opens a batch where there is none. -/
theorem keys_join (batches : Batches) (key : BatchKey) (member : BatchMember) :
    (batches.join key member).map Prod.fst =
      if batches.isOpen key then batches.map Prod.fst else batches.map Prod.fst ++ [key] := by
  induction batches with
  | nil => rfl
  | cons batch rest ih =>
    obtain ⟨k, list⟩ := batch
    by_cases same : k = key
    · subst same
      have here : isOpen ((k, list) :: rest) k = true := by simp [isOpen]
      rw [join, if_pos rfl, if_pos here]
      rfl
    · have rest_only : isOpen ((k, list) :: rest) key = isOpen rest key := by
        simp [isOpen, same]
      rw [join, if_neg same, rest_only, List.map_cons, ih]
      split <;> rfl

/-- Closing removes the key. -/
theorem keys_close (batches : Batches) (key : BatchKey)
    (distinct : (batches.map Prod.fst).Nodup) :
    (batches.close key).map Prod.fst = (batches.map Prod.fst).erase key := by
  induction batches with
  | nil => rfl
  | cons batch rest ih =>
    obtain ⟨k, list⟩ := batch
    rw [List.map_cons, List.nodup_cons] at distinct
    by_cases same : k = key
    · subst same
      rw [close, if_pos rfl, close_of_not_mem distinct.1, List.map_cons, List.erase_cons_head]
    · rw [close, if_neg same, List.map_cons, List.map_cons, ih distinct.2,
        List.erase_cons_tail (by simpa using same)]

/-- Joining leaves no batch empty. -/
theorem filled_join {batches : Batches} (key : BatchKey) (member : BatchMember)
    (filled : ∀ batch ∈ batches, batch.2 ≠ []) :
    ∀ batch ∈ batches.join key member, batch.2 ≠ [] := by
  induction batches with
  | nil =>
    intro batch joined
    rw [join, List.mem_singleton] at joined
    rw [joined]
    exact List.cons_ne_nil _ _
  | cons batch rest ih =>
    obtain ⟨k, list⟩ := batch
    have below := ih fun batch inRest => filled batch (List.mem_cons_of_mem _ inRest)
    intro batch joined
    rw [join] at joined
    split at joined
    · rcases List.mem_cons.mp joined with rfl | inRest
      · simp
      · exact filled batch (List.mem_cons_of_mem _ inRest)
    · rcases List.mem_cons.mp joined with rfl | inRest
      · exact filled _ List.mem_cons_self
      · exact below batch inRest

/-- Closing takes batches out of the table and adds none. -/
theorem mem_of_mem_close {batches : Batches} {key : BatchKey} {batch : BatchKey × List BatchMember}
    (kept : batch ∈ batches.close key) : batch ∈ batches := by
  induction batches with
  | nil => exact kept
  | cons head rest ih =>
    obtain ⟨k, list⟩ := head
    rw [close] at kept
    split at kept
    · exact List.mem_cons_of_mem _ (ih kept)
    · rcases List.mem_cons.mp kept with rfl | inRest
      · exact List.mem_cons_self
      · exact List.mem_cons_of_mem _ (ih inRest)

/-- The members of a batch in the table. -/
theorem members_of_mem {batches : Batches} {key : BatchKey} (list : List BatchMember)
    (distinct : (batches.map Prod.fst).Nodup) (inTable : (key, list) ∈ batches) :
    batches.members key = list := by
  induction batches with
  | nil => cases inTable
  | cons batch rest ih =>
    obtain ⟨k, first⟩ := batch
    rw [List.map_cons, List.nodup_cons] at distinct
    rcases List.mem_cons.mp inTable with here | inRest
    · cases here
      rw [members, if_pos rfl]
    · have different : k ≠ key := by
        intro same
        exact distinct.1 (List.mem_map.mpr ⟨_, inRest, same.symm⟩)
      rw [members, if_neg different]
      exact ih distinct.2 inRest

end Batches

end FieldResolver

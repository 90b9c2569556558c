/-
**Runs at the front of a list.**

The longest run of items of a kind at the front of a list ends in front of the first item of another
kind, and does not change when something is put behind the list that does not go on with the run.

* `stops`, `stops_head`: what stands behind a run;
* `takeWhile_append`, `dropWhile_append`: a run in a longer list;
* `of_append`: a run and what follows it.
-/

import Mathlib.Data.List.TakeWhile

namespace FieldResolver.Runs

variable {α : Type} {kind : α → Bool} {items more : List α}

/-- A run ends in front of an item of another kind. -/
theorem stops_head (kind : α → Bool) (items : List α) :
    ∀ item ∈ (items.dropWhile kind).head?, kind item = false := by
  intro item first
  have other := List.head?_dropWhile_not kind items
  rw [Option.mem_def.mp first] at other
  simpa using other

theorem stops {item : α} {rest : List α} (left : items.dropWhile kind = item :: rest) :
    kind item = false :=
  stops_head kind items item (by rw [left]; rfl)

/-- What does not start with an item of a kind starts with no run of it. -/
theorem none_of_head (ends : ∀ item ∈ more.head?, kind item = false) :
    more.takeWhile kind = [] ∧ more.dropWhile kind = more := by
  cases more with
  | nil => exact ⟨rfl, rfl⟩
  | cons item rest => simp [ends item rfl]

theorem takeWhile_append (ends : ∀ item ∈ more.head?, kind item = false) (items : List α) :
    (items ++ more).takeWhile kind = items.takeWhile kind := by
  induction items with
  | nil => exact (none_of_head ends).1
  | cons item rest ih => by_cases same : kind item = true <;> simp [same, ih]

theorem dropWhile_append (ends : ∀ item ∈ more.head?, kind item = false) (items : List α) :
    (items ++ more).dropWhile kind = items.dropWhile kind ++ more := by
  induction items with
  | nil => exact (none_of_head ends).2
  | cons item rest ih => by_cases same : kind item = true <;> simp [same, ih]

/-- Items of a kind in front of what does not go on with them. -/
theorem of_append (all : ∀ item ∈ items, kind item = true)
    (ends : ∀ item ∈ more.head?, kind item = false) :
    (items ++ more).takeWhile kind = items ∧ (items ++ more).dropWhile kind = more := by
  rw [takeWhile_append ends, dropWhile_append ends, List.takeWhile_eq_self_iff.mpr all,
    List.dropWhile_eq_nil_iff.mpr all]
  exact ⟨rfl, rfl⟩

end FieldResolver.Runs

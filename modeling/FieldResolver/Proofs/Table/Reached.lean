/-
**What tables hold.**

In a store that requests lead to, whatever becomes of them, the items of a table are in the order of
their keys and every one of them has a plain form.

* `Contents.Sound`: what holds of every table, kept by all effects (`Runs.sound`);
* `Reached.sound`: so it holds of every store that requests lead to;
* `Contents.Sound.plain_find`, `Contents.Sound.removeAll_ok`: reading or deleting what is stored
  does not fail.
-/

import FieldResolver.Proofs.Table.Effects

namespace FieldResolver.Table

/-- What holds of every table. -/
structure Contents.Sound (table : Contents) : Prop where
  ordered : table.items.Ascending
  plain : ∀ entry ∈ table.items, ∃ value, plainItem entry.2 = .ok value

/-- Whether all tables of a store are sound. -/
def Store.Sound (store : Store) : Prop := ∀ name, (store.table name).Sound

/-- The stores that requests lead to from nothing, whatever becomes of them. -/
inductive Reached : Store → Prop where
  | empty : Reached []
  | create {store : Store} (reached : Reached store) (name : String) (keyNames : List String) :
      Reached (store.createTable name keyNames)
  | request {store : Store} (reached : Reached store) (name : String) (request : Json) :
      Reached (store.execute name request).2

section

variable {table after : Contents} {store last : Store} {effects : List Effect}

theorem Contents.sound_empty : Contents.Sound {} where
  ordered := Index.ascending_nil
  plain := fun _ member => absurd member List.not_mem_nil

theorem Contents.Sound.put (sound : table.Sound) {key item : Item} {value : Json}
    (plain : plainItem item = .ok value) : (table.store key item).Sound where
  ordered := Index.ascending_insert sound.ordered _ _
  plain := by
    intro entry member
    rcases Index.mem_insert member with rfl | before
    · exact ⟨value, plain⟩
    · exact sound.plain entry before

theorem Contents.Sound.remove (sound : table.Sound) (key : Item) : (table.remove key).Sound where
  ordered := Index.ascending_erase sound.ordered _
  plain := fun entry member => sound.plain entry (Index.mem_of_mem_erase member)

/-- Effects keep a table sound. -/
theorem Contents.Runs.sound {name : String} (run : Contents.Runs name table effects after)
    (sound : table.Sound) : after.Sound := by
  induction run with
  | refl table => exact sound
  | declare table keyNames => exact ⟨sound.ordered, sound.plain⟩
  | store table operation plain carries => exact sound.put plain
  | remove table key => exact sound.remove key
  | append _ _ first second => exact second (first sound)

/-- Effects keep all tables sound. -/
theorem Runs.sound (run : Runs store effects last) (sound : store.Sound) : last.Sound := by
  induction run with
  | refl store => exact sound
  | table name run others =>
    intro other
    by_cases same : other = name
    · rw [same]
      exact run.sound (sound name)
    · rw [others other same]
      exact sound other
  | append _ _ first second => exact second (first sound)

theorem Reached.sound (reached : Reached store) : store.Sound := by
  induction reached with
  | empty => exact fun _ => Contents.sound_empty
  | create _ name keyNames ih => exact (createTable_runs _ name keyNames).sound ih
  | request _ name request ih =>
    obtain ⟨_, run, _⟩ := execute_runs _ name request
    exact run.sound ih

/-- Reading what is stored does not fail. -/
theorem Contents.Sound.plain_find (sound : table.Sound) (key : Item) :
    ∃ value, Table.plain (table.find? key) = .ok value := by
  cases found : table.find? key with
  | none => exact ⟨.null, rfl⟩
  | some item => exact sound.plain _ (Index.mem_of_get? found)

/-- Deleting what is stored does not fail. -/
theorem Contents.Sound.removeAll_ok (sound : table.Sound) (keys : List Item) :
    ∃ values, (Store.removeAll table keys).1 = .ok values := by
  induction keys generalizing table with
  | nil => exact ⟨[], rfl⟩
  | cons key rest ih =>
    obtain ⟨value, found⟩ := sound.plain_find key
    obtain ⟨values, below⟩ := ih (sound.remove key)
    refine ⟨value :: values, ?_⟩
    rw [Store.removeAll]
    simp only [found]
    show ((Store.removeAll (table.remove key) rest).1).map (value :: ·) = _
    rw [below]
    rfl

/-- Deleting from tables does not fail either. -/
theorem Store.Sound.batchDelete_ok (sound : store.Sound) (tables : BatchRequest) :
    ∃ results, (store.batchDelete tables).1 = .ok results := by
  induction tables generalizing store with
  | nil => exact ⟨[], rfl⟩
  | cons entry rest ih =>
    obtain ⟨name, keys⟩ := entry
    obtain ⟨middle, agree, same⟩ := Store.batchDelete_cons store name keys rest
    obtain ⟨values, removed⟩ := (sound name).removeAll_ok keys
    obtain ⟨effects, run, _⟩ := removeAll_runs name (store.table name) keys
    obtain ⟨results, below⟩ := ih ((Runs.written run agree).sound sound)
    rw [same, removed]
    exact ⟨_, congrArg (Except.map _) below⟩

end

end FieldResolver.Table

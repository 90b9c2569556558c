/-
**What was written into a dictionary.**

A dictionary starts empty and is written, one event after another. What it holds then can be said
without it: a key has the value last written under it, unless it was removed since, and the keys
stand in the order in which they came in. Overwriting a key is no coming in, and a key that is
removed and written again comes in last.

* `last?`, `keys`, `entries`: what a journal says;
* `nodup_keys`, `keys_entries`, `mem_entries_iff`: every key is there once, with its last value;
* `replay`: what the events of a journal make of a dictionary;
* `Records`: whether a dictionary holds what a journal says, kept by every operation on it
  (`Records.insert`, `Records.erase`, `records_cleared`) and so by replaying (`Records.replay`);
* `records_writing`, `records_of_distinct`: entries that were written one after another;
* `Records.eq_entries`: what a journal says is all there is to a dictionary.
-/

import FieldResolver.Proofs.Dict

namespace FieldResolver

/-- What can happen to a dictionary. -/
inductive DictEvent (α : Type) where
  | written (key : String) (value : α)
  | removed (key : String)
  | cleared
deriving DecidableEq

/-- What happened to a dictionary that was empty at first; the latest comes first. -/
abbrev Journal (α : Type) := List (DictEvent α)

namespace Journal

variable {α : Type}

/-- The value last written under a key, if the key was not removed since. -/
def last? (key : String) : Journal α → Option α
  | [] => none
  | .written name value :: earlier => if name = key then some value else last? key earlier
  | .removed name :: earlier => if name = key then none else last? key earlier
  | .cleared :: _ => none

/-- The keys that are there, in the order in which they came in: writing a key that is there leaves
it in its place, and removing one leaves the order of the rest. -/
def keys : Journal α → List String
  | [] => []
  | .written key _ :: earlier =>
    if key ∈ keys earlier then keys earlier else keys earlier ++ [key]
  | .removed key :: earlier => (keys earlier).erase key
  | .cleared :: _ => []

/-- The keys that are there with their last values. -/
def entries (journal : Journal α) : Dict α :=
  (keys journal).filterMap fun key => (last? key journal).map (Prod.mk key)

/-- What the events of a journal make of a dictionary. -/
def replay : Journal α → Dict α → Dict α
  | [], dict => dict
  | .written key value :: earlier, dict => (replay earlier dict).insert key value
  | .removed key :: earlier, dict => (replay earlier dict).erase key
  | .cleared :: _, _ => []

/-- Entries written one after another. -/
def writing (entries : List (String × α)) : Journal α :=
  (entries.map fun entry => .written entry.1 entry.2).reverse

/-- **No key is there twice.** -/
theorem nodup_keys (journal : Journal α) : (keys journal).Nodup := by
  induction journal with
  | nil => exact List.nodup_nil
  | cons event earlier ih =>
    cases event with
    | written key value =>
      rw [keys]
      split
      · exact ih
      · rename_i absent
        simpa using ih.concat absent
    | removed key => exact ih.erase key
    | cleared => exact List.nodup_nil

/-- The keys that are there are those with a value. -/
theorem mem_keys_iff {journal : Journal α} {key : String} :
    key ∈ keys journal ↔ (last? key journal).isSome := by
  induction journal with
  | nil => simp [keys, last?]
  | cons event earlier ih =>
    cases event with
    | written name value =>
      by_cases same : name = key
      · subst same
        simp only [keys, last?, if_true, Option.isSome_some, iff_true]
        split <;> simp_all
      · rw [last?, if_neg same, ← ih, keys]
        split
        · exact Iff.rfl
        · simp [Ne.symm same]
    | removed name =>
      rw [keys, (nodup_keys earlier).mem_erase_iff, last?, ih]
      by_cases same : name = key <;> simp [same, Ne.symm]
    | cleared => simp [keys, last?]

/-- The keys that are there are listed with their values, in their order. -/
theorem keys_entries (journal : Journal α) : (entries journal).keys = keys journal := by
  rw [Dict.keys, entries, List.map_filterMap]
  nth_rewrite 2 [← List.filterMap_some (l := keys journal)]
  refine List.filterMap_congr fun key member => ?_
  obtain ⟨value, found⟩ := Option.isSome_iff_exists.mp (mem_keys_iff.mp member)
  rw [found]
  rfl

/-- **Every key is there with its last value**, and nothing else is. -/
theorem mem_entries_iff {journal : Journal α} {key : String} {value : α} :
    (key, value) ∈ entries journal ↔ last? key journal = some value := by
  simp only [entries, List.mem_filterMap, Option.map_eq_some_iff, Prod.mk.injEq]
  constructor
  · rintro ⟨_, _, _, found, rfl, rfl⟩
    exact found
  · intro found
    exact ⟨key, mem_keys_iff.mpr (by rw [found]; rfl), value, found, rfl, rfl⟩

example : entries (.removed "a" :: writing [("a", 1), ("b", 2), ("a", 3), ("c", 4), ("b", 5)]) =
    [("b", 5), ("c", 4)] := by decide

theorem replay_append (later earlier : Journal α) (dict : Dict α) :
    replay (later ++ earlier) dict = replay later (replay earlier dict) := by
  induction later with
  | nil => rfl
  | cons event rest ih => cases event <;> simp [replay, ih]

/-- Entries are written one after another. -/
theorem replay_writing (entries : List (String × α)) (dict : Dict α) :
    replay (writing entries) dict = dict.insertAll entries := by
  induction entries generalizing dict with
  | nil => rfl
  | cons entry rest ih =>
    rw [writing, List.map_cons, List.reverse_cons, replay_append, Dict.insertAll_cons]
    exact ih _

/-- Whether a dictionary holds what a journal says. -/
structure Records (journal : Journal α) (dict : Dict α) : Prop where
  get?_eq : ∀ key, dict.get? key = last? key journal
  keys_eq : dict.keys = keys journal

theorem records_nil : Records ([] : Journal α) [] where
  get?_eq _ := rfl
  keys_eq := rfl

section

variable {journal : Journal α} {dict : Dict α}

theorem Records.nodup (records : Records journal dict) : dict.keys.Nodup :=
  records.keys_eq ▸ nodup_keys journal

theorem Records.insert (records : Records journal dict) (key : String) (value : α) :
    Records (.written key value :: journal) (dict.insert key value) where
  get?_eq other := by rw [Dict.get?_insert, last?, records.get?_eq]
  keys_eq := by
    rw [keys, ← records.keys_eq]
    split
    · rename_i present
      exact Dict.keys_insert_of_mem dict value present
    · rename_i absent
      rw [Dict.insert_of_not_mem dict value absent, Dict.keys_append]
      rfl

theorem Records.erase (records : Records journal dict) (key : String) :
    Records (.removed key :: journal) (dict.erase key) where
  get?_eq other := by
    rw [last?]
    split
    · rename_i same
      rw [← same]
      exact Dict.get?_erase_self records.nodup key
    · rename_i different
      rw [Dict.get?_erase_of_ne dict different, records.get?_eq]
  keys_eq := by rw [Dict.keys_erase, records.keys_eq, keys]

theorem records_cleared (journal : Journal α) : Records (.cleared :: journal) [] where
  get?_eq _ := rfl
  keys_eq := rfl

/-- **A dictionary that records a journal goes on recording it.** -/
theorem Records.replay (records : Records journal dict) (events : Journal α) :
    Records (events ++ journal) (replay events dict) := by
  induction events with
  | nil => exact records
  | cons event earlier ih =>
    cases event with
    | written key value => exact ih.insert key value
    | removed key => exact ih.erase key
    | cleared => exact records_cleared _

/-- Entries that were written one after another. -/
theorem records_writing (entries : List (String × α)) :
    Records (writing entries) (Dict.ofEntries entries) := by
  have made := records_nil.replay (writing entries)
  rwa [List.append_nil, replay_writing] at made

/-- Entries with distinct keys are what writing them one after another makes. -/
theorem records_of_distinct {entries : Dict α} (distinct : entries.keys.Nodup) :
    Records (writing entries) entries := by
  have made := records_writing entries
  rwa [Dict.ofEntries_of_distinct distinct] at made

/-- **What a journal says is all there is to a dictionary.** -/
theorem Records.eq_entries (records : Records journal dict) : dict = entries journal := by
  have rebuilt : dict = dict.keys.filterMap fun key => (dict.get? key).map (Prod.mk key) := by
    rw [Dict.keys, List.filterMap_map]
    nth_rewrite 1 [← List.filterMap_some (l := dict)]
    refine List.filterMap_congr fun entry member => ?_
    rw [Function.comp_apply, Dict.get?_of_mem records.nodup member]
    rfl
  rw [rebuilt, records.keys_eq, entries]
  simp only [records.get?_eq]

end

end Journal

end FieldResolver

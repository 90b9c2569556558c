/-
**Steps that may fail.**

What a value says about the steps that it came from, for computations that end with a value or an
error.

* `bind_ok`, `map_ok`, `mapError_ok`, `toOption_ok`: a computation gives a value only if its steps
  do;
* `foldlM_keeps`, `foldlM_keeps_of_mem`: an invariant of a loop that may stop early;
* `exists_foldlM_ok_iff_turns`: when a loop comes to its end;
* `exists_of_mem_mapM`: what is read out of every item of a list comes from one of them;
* `mapM_ok`, `mapM_append_ok`: reading the items of a list one after another;
* `exists_foldlM_ok_iff`, `keys_of_foldlM`: a loop that refuses repeated keys;
* `forall₂_of_mapM`, `exists_mapM_ok_iff`: a list and what its items are read as.
-/

import Mathlib.Data.List.Forall2
import Mathlib.Data.List.Induction
import Mathlib.Data.List.Nodup

namespace FieldResolver.Fallible

variable {ε ε' α β : Type}

/-- A value of two steps comes from a value of the first. -/
theorem bind_ok {first : Except ε α} {next : α → Except ε β} {value : β}
    (done : (first >>= next) = .ok value) :
    ∃ middle, first = .ok middle ∧ next middle = .ok value := by
  cases first with
  | error cause => cases done
  | ok middle => exact ⟨middle, rfl, done⟩

/-- A value that was changed comes from the value before. -/
theorem map_ok {first : Except ε α} {change : α → β} {value : β}
    (done : first.map change = .ok value) :
    ∃ before, first = .ok before ∧ change before = value := by
  cases first with
  | error cause => cases done
  | ok before =>
    cases done
    exact ⟨before, rfl, rfl⟩

/-- Rewording errors leaves values alone. -/
theorem mapError_ok {first : Except ε α} {reword : ε → ε'} {value : α}
    (done : first.mapError reword = .ok value) : first = .ok value := by
  cases first with
  | error cause => cases done
  | ok before =>
    cases done
    rfl

/-- A value without its errors was one with them. -/
theorem toOption_ok {first : Except ε α} {value : α} (done : first.toOption = some value) :
    first = .ok value := by
  cases first with
  | error cause => cases done
  | ok before =>
    cases done
    rfl

/-- What every step of a loop keeps holds at its end. -/
theorem foldlM_keeps {step : β → α → Except ε β} {kept : β → Prop}
    (keeps : ∀ {before item after}, step before item = .ok after → kept before → kept after)
    {items : List α} {first last : β} (done : items.foldlM step first = .ok last)
    (holds : kept first) : kept last := by
  induction items generalizing first with
  | nil =>
    cases done
    exact holds
  | cons item rest ih =>
    obtain ⟨next, here, below⟩ := bind_ok done
    exact ih below (keeps here holds)

/-- What the steps of a loop over some items keep holds at its end. -/
theorem foldlM_keeps_of_mem {step : β → α → Except ε β} {kept : β → Prop} {items : List α}
    (keeps : ∀ item ∈ items, ∀ {before after}, step before item = .ok after → kept before →
      kept after)
    {first last : β} (done : items.foldlM step first = .ok last) (holds : kept first) :
    kept last := by
  induction items generalizing first with
  | nil =>
    cases done
    exact holds
  | cons item rest ih =>
    obtain ⟨next, here, below⟩ := bind_ok done
    obtain ⟨keep, others⟩ := List.forall_mem_cons.mp keeps
    exact ih others below (keep here holds)

/-- A loop comes to its end just when every step can be made from where those in front of it lead. -/
theorem exists_foldlM_ok_iff_turns {step : β → α → Except ε β} {items : List α} {first : β} :
    (∃ last, items.foldlM step first = .ok last) ↔
      ∀ front item back, items = front ++ item :: back →
        ∀ sofar, front.foldlM step first = .ok sofar → ∃ next, step sofar item = .ok next := by
  constructor
  · rintro ⟨last, done⟩ front item back rfl sofar reached
    rw [List.foldlM_append, reached] at done
    have done : (item :: back).foldlM step sofar = .ok last := done
    obtain ⟨next, here, -⟩ := bind_ok done
    exact ⟨next, here⟩
  · intro turns
    induction items using List.reverseRecOn with
    | nil => exact ⟨first, rfl⟩
    | append_singleton front item ih =>
      obtain ⟨sofar, reached⟩ := ih fun before other back split =>
        turns before other (back ++ [item]) (by simp [split])
      obtain ⟨next, here⟩ := turns front item [] rfl sofar reached
      refine ⟨next, ?_⟩
      rw [List.foldlM_append, reached]
      show (step sofar item >>= _) = _
      rw [here]
      rfl

/-- What is read out of every item of a list comes from one of them. -/
theorem exists_of_mem_mapM {read : α → Option β} {items : List α} {contents : List β}
    (all : items.mapM read = some contents) :
    ∀ content ∈ contents, ∃ item ∈ items, read item = some content := by
  induction items generalizing contents with
  | nil =>
    cases all
    exact fun _ member => absurd member List.not_mem_nil
  | cons item rest ih =>
    rw [List.mapM_cons] at all
    obtain ⟨first, here, all⟩ := Option.bind_eq_some_iff.mp all
    obtain ⟨others, below, same⟩ := Option.bind_eq_some_iff.mp all
    cases same
    intro content member
    rcases List.mem_cons.mp member with rfl | inOthers
    · exact ⟨item, List.mem_cons_self, here⟩
    · obtain ⟨source, inRest, read⟩ := ih below content inOthers
      exact ⟨source, List.mem_cons_of_mem _ inRest, read⟩

section

variable {read : α → Except ε β}

/-- All items of a list are read if each of them is. -/
theorem mapM_ok {items : List α} (each : ∀ item ∈ items, ∃ content, read item = .ok content) :
    ∃ contents, items.mapM read = .ok contents := by
  induction items with
  | nil => exact ⟨[], rfl⟩
  | cons item rest ih =>
    obtain ⟨⟨first, here⟩, others⟩ := List.forall_mem_cons.mp each
    obtain ⟨contents, below⟩ := ih others
    exact ⟨first :: contents, by rw [List.mapM_cons, here, below]; rfl⟩

/-- Two lists are read one after the other. -/
theorem mapM_append_ok {first second : List α} {contents others : List β}
    (here : first.mapM read = .ok contents) (there : second.mapM read = .ok others) :
    (first ++ second).mapM read = .ok (contents ++ others) := by
  rw [List.mapM_append, here, there]
  rfl

end

/-! ### Loops that refuse repeated keys -/

section

variable {κ : Type}

/-- A loop whose steps refuse an item with a key that was there before comes to its end just when
no key is repeated and nothing else is wrong with an item. -/
theorem exists_foldlM_ok_iff (step : β → α → Except ε β) (keys : β → List κ) (key : α → κ)
    (fits : α → Prop)
    (accepts : ∀ state item,
      (∃ after, step state item = .ok after) ↔ key item ∉ keys state ∧ fits item)
    (grows : ∀ {state item after}, step state item = .ok after →
      keys after = keys state ++ [key item])
    (items : List α) {state : β} (distinct : (keys state).Nodup) :
    (∃ last, items.foldlM step state = .ok last) ↔
      (keys state ++ items.map key).Nodup ∧ ∀ item ∈ items, fits item := by
  induction items generalizing state with
  | nil =>
    rw [List.map_nil, List.append_nil]
    exact ⟨fun _ => ⟨distinct, fun _ member => absurd member List.not_mem_nil⟩,
      fun _ => ⟨state, rfl⟩⟩
  | cons item rest ih =>
    have shifted : keys state ++ (item :: rest).map key =
        (keys state ++ [key item]) ++ rest.map key := by simp
    constructor
    · rintro ⟨last, done⟩
      obtain ⟨after, here, below⟩ := bind_ok done
      obtain ⟨new, fit⟩ := (accepts state item).mp ⟨after, here⟩
      have distinct' : (keys after).Nodup := by
        rw [grows here, List.nodup_append]
        refine ⟨distinct, List.nodup_singleton _, ?_⟩
        rintro other before _ (_ | ⟨_, ⟨⟩⟩) rfl
        exact new before
      obtain ⟨all, fits⟩ := (ih distinct').mp ⟨last, below⟩
      rw [grows here] at all
      exact ⟨shifted ▸ all, List.forall_mem_cons.mpr ⟨fit, fits⟩⟩
    · rintro ⟨all, fits⟩
      obtain ⟨fit, others⟩ := List.forall_mem_cons.mp fits
      rw [shifted] at all
      have front := List.Nodup.of_append_left all
      have new : key item ∉ keys state := by
        intro before
        exact (List.nodup_append.mp front).2.2 _ before _ (List.mem_singleton_self _) rfl
      obtain ⟨after, here⟩ := (accepts state item).mpr ⟨new, fit⟩
      rw [← grows here] at all front
      obtain ⟨last, below⟩ := (ih front).mpr ⟨all, others⟩
      exact ⟨last, by rw [List.foldlM_cons, here]; exact below⟩

/-- A loop whose steps add a key each ends with the keys of all items. -/
theorem keys_of_foldlM {step : β → α → Except ε β} (keys : β → List κ) (key : α → κ)
    (grows : ∀ {state item after}, step state item = .ok after →
      keys after = keys state ++ [key item])
    {items : List α} {state last : β} (done : items.foldlM step state = .ok last) :
    keys last = keys state ++ items.map key := by
  induction items generalizing state with
  | nil =>
    cases done
    exact (List.append_nil _).symm
  | cons item rest ih =>
    obtain ⟨after, here, below⟩ := bind_ok done
    rw [ih below, grows here, List.map_cons, List.append_assoc, List.singleton_append]

/-- The items of a list are read one by one. -/
theorem forall₂_of_mapM {read : α → Except ε β} {items : List α} {contents : List β}
    (all : items.mapM read = .ok contents) :
    List.Forall₂ (fun item content => read item = .ok content) items contents := by
  induction items generalizing contents with
  | nil =>
    cases all
    exact .nil
  | cons item rest ih =>
    rw [List.mapM_cons] at all
    obtain ⟨first, here, all⟩ := bind_ok all
    obtain ⟨others, below, same⟩ := bind_ok all
    cases same
    exact .cons here (ih below)

/-- An item of the first of two related lists is related to one of the second. -/
theorem exists_of_mem_left {related : α → β → Prop} {items : List α} {contents : List β}
    (all : List.Forall₂ related items contents) {item : α} (member : item ∈ items) :
    ∃ content ∈ contents, related item content := by
  induction all with
  | nil => exact absurd member List.not_mem_nil
  | cons here _ ih =>
    rcases List.mem_cons.mp member with rfl | inRest
    · exact ⟨_, List.mem_cons_self, here⟩
    · obtain ⟨content, inOthers, there⟩ := ih inRest
      exact ⟨content, List.mem_cons_of_mem _ inOthers, there⟩

/-- An item of the second of two related lists is related to one of the first. -/
theorem exists_of_mem_right {related : α → β → Prop} {items : List α} {contents : List β}
    (all : List.Forall₂ related items contents) {content : β} (member : content ∈ contents) :
    ∃ item ∈ items, related item content :=
  exists_of_mem_left all.flip member

theorem mapM_of_forall₂ {read : α → Except ε β} {items : List α} {contents : List β}
    (all : List.Forall₂ (fun item content => read item = .ok content) items contents) :
    items.mapM read = .ok contents := by
  induction all with
  | nil => rfl
  | cons here _ ih =>
    rw [List.mapM_cons, here, ih]
    rfl

/-- All items of a list are read just when each of them is. -/
theorem exists_mapM_ok_iff {read : α → Except ε β} {items : List α} :
    (∃ contents, items.mapM read = .ok contents) ↔
      ∀ item ∈ items, ∃ content, read item = .ok content := by
  constructor
  · rintro ⟨contents, all⟩ item member
    obtain ⟨content, -, here⟩ := exists_of_mem_left (forall₂_of_mapM all) member
    exact ⟨content, here⟩
  · exact mapM_ok

end

end FieldResolver.Fallible

/-
**Updates work on each attribute apart.**

An update makes four passes over an item: it writes what is set, removes, writes what is added and
deletes members of sets. What an attribute holds afterwards depends on the item before and on the
actions that name the attribute, whatever else the update does.

* `Update.on`: the actions of an update on one attribute;
* `Update.valueOf`: what they make of it, with every value that is set or added computed from the
  item as it was before;
* `writes_attribute`, `get?_removed`, `deletes_attribute`: what each pass makes of an attribute;
* `Update.apply_attribute`, `Update.exists_apply_iff`: an update does to every attribute what its
  actions on it do, and it can be applied just when all of them can;
* `updated_apart`: so attributes do not depend on each other's actions, nor on the order in which
  clauses of different kinds are written.
-/

import FieldResolver.Proofs.Expression.Ordering
import FieldResolver.Proofs.Table.WellFormed

namespace FieldResolver.Table

open Fallible
open Expression (ResolvedUpdate)

/-! ### One attribute -/

/-- What is left of an attribute when members are deleted from it; one that is missing stays so. -/
def deletedFrom (held : Option Json) (value : Json) : Except UpdateError (Option Json) :=
  match held with
  | none => .ok none
  | some existing => deleted existing value

namespace Update

/-- The actions of an update on one attribute. -/
def on (update : ResolvedUpdate) (name : String) : ResolvedUpdate where
  set := update.set.filter (·.1 = name)
  remove := update.remove.filter (· = name)
  add := update.add.filter (·.1 = name)
  delete := update.delete.filter (·.1 = name)

/-- Whether an action of an update names an attribute. -/
def Names (update : ResolvedUpdate) (name : String) : Prop :=
  (∃ action ∈ update.set, action.1 = name) ∨ name ∈ update.remove ∨
    (∃ action ∈ update.add, action.1 = name) ∨ ∃ action ∈ update.delete, action.1 = name

/-- What the actions on an attribute make of it: the last sum if there are any, nothing if it is
removed, or else the last value set, and then without the members deleted. Values and sums are
computed from the item before the update. -/
def valueOf (update : ResolvedUpdate) (before : Item) (name : String) :
    Except UpdateError (Option Json) := do
  let own := update.on name
  let values ← own.set.mapM fun action => action.2.of before
  let sums ← own.add.mapM fun action => added (before.get? action.1) action.2
  let kept := if own.remove.isEmpty then values.getLast?.or (before.get? name) else none
  own.delete.foldlM (fun held action => deletedFrom held action.2) (sums.getLast?.or kept)

end Update

/-! ### Writing -/

section

variable {β : Type} {value : String × β → Except UpdateError Json} {actions : List (String × β)}
  {item after : Item}

/-- Writes a value that may be missing. -/
def writeBy (value : String × β → Except UpdateError Json) (item : Item) (action : String × β) :
    Except UpdateError Item := do
  return item.insert action.1 (← value action)

/-- A pass of writes leaves each attribute with the last value written to it. -/
theorem writes_attribute (done : actions.foldlM (writeBy value) item = .ok after) (name : String) :
    ∃ values, (actions.filter (·.1 = name)).mapM value = .ok values ∧
      after.get? name = values.getLast?.or (item.get? name) := by
  induction actions generalizing item with
  | nil =>
    cases done
    exact ⟨[], rfl, rfl⟩
  | cons action actions ih =>
    obtain ⟨next, here, below⟩ := bind_ok done
    obtain ⟨written, found, same⟩ := bind_ok here
    cases same
    obtain ⟨values, read, holds⟩ := ih below
    rw [Dict.get?_insert] at holds
    by_cases named : action.1 = name
    · refine ⟨written :: values, ?_, ?_⟩
      · rw [List.filter_cons_of_pos (by simpa using named), List.mapM_cons, found, read]
        rfl
      · rw [holds, if_pos named, List.getLast?_cons]
        cases values.getLast? <;> rfl
    · refine ⟨values, ?_, ?_⟩
      · rw [List.filter_cons_of_neg (by simpa using named), read]
      · rw [holds, if_neg named]

/-- A pass of writes ends just when all values are there. -/
theorem exists_writes_iff :
    (∃ after : Item, actions.foldlM (writeBy value) item = .ok after) ↔
      ∀ action ∈ actions, ∃ written, value action = .ok written := by
  induction actions generalizing item with
  | nil => exact ⟨fun _ => List.forall_mem_nil _, fun _ => ⟨item, rfl⟩⟩
  | cons action actions ih =>
    rw [List.forall_mem_cons]
    constructor
    · rintro ⟨after, done⟩
      obtain ⟨next, here, below⟩ := bind_ok done
      obtain ⟨written, found, -⟩ := bind_ok here
      exact ⟨⟨written, found⟩, ih.mp ⟨after, below⟩⟩
    · rintro ⟨⟨written, found⟩, others⟩
      obtain ⟨after, below⟩ := ih.mpr others
      refine ⟨after, ?_⟩
      rw [List.foldlM_cons, writeBy, found]
      exact below

theorem writes_distinct (distinct : (Dict.keys item).Nodup)
    (done : actions.foldlM (writeBy value) item = .ok after) : (Dict.keys after).Nodup := by
  have keeps {before : Item} {action : String × β} {after : Item}
      (here : writeBy value before action = .ok after) (distinct : (Dict.keys before).Nodup) :
      (Dict.keys after).Nodup := by
    obtain ⟨written, -, same⟩ := bind_ok here
    cases same
    exact Dict.keys_insert_nodup distinct _ _
  exact @foldlM_keeps _ _ _ _ (fun item => (Dict.keys item).Nodup) keeps _ _ _ done distinct

end

/-! ### Removing -/

section

variable {item after : Item}

theorem swapErase_distinct (distinct : (Dict.keys item).Nodup) (name : String) :
    (Dict.keys (item.swapErase name)).Nodup := by
  have same := (swapErase_perm item name).map Prod.fst
  exact same.nodup_iff.mpr (Dict.keys_erase_nodup distinct name)

/-- What is read after an attribute is removed. -/
theorem get?_swapErase (distinct : (Dict.keys item).Nodup) (name other : String) :
    Dict.get? (item.swapErase name) other = if name = other then none else item.get? other := by
  rw [Dict.get?_of_perm (swapErase_distinct distinct name) (swapErase_perm item name)]
  split
  · rename_i same
    rw [← same]
    exact Dict.get?_erase_self distinct name
  · exact Dict.get?_erase_of_ne item ‹_›

theorem removed_distinct (distinct : (Dict.keys item).Nodup) (names : List String) :
    (Dict.keys (names.foldl Dict.swapErase item)).Nodup := by
  induction names generalizing item with
  | nil => exact distinct
  | cons name names ih => exact ih (swapErase_distinct distinct name)

/-- A pass of removals leaves the attributes that are not removed. -/
theorem get?_removed (distinct : (Dict.keys item).Nodup) (names : List String) (name : String) :
    Dict.get? (names.foldl Dict.swapErase item) name =
      if (names.filter (· = name)).isEmpty then item.get? name else none := by
  induction names generalizing item with
  | nil => rfl
  | cons first names ih =>
    rw [List.foldl_cons, ih (swapErase_distinct distinct first), get?_swapErase distinct]
    by_cases named : first = name
    · rw [List.filter_cons_of_pos (by simpa using named), if_pos named]
      simp
    · rw [List.filter_cons_of_neg (by simpa using named), if_neg named]

/-! ### Deleting members -/

/-- Members are deleted from one attribute. -/
theorem deleteFrom_attribute (distinct : (Dict.keys item).Nodup) {action : String × Json}
    (done : deleteFrom item action = .ok after) :
    deletedFrom (item.get? action.1) action.2 = .ok (after.get? action.1) ∧
      (∀ other, action.1 ≠ other → after.get? other = item.get? other) ∧
        (Dict.keys after).Nodup := by
  unfold deleteFrom at done
  split at done
  · rename_i missing
    cases done
    rw [missing]
    exact ⟨rfl, fun _ _ => rfl, distinct⟩
  · rename_i existing found
    obtain ⟨kept, here, done⟩ := bind_ok done
    rw [found, deletedFrom, here]
    cases kept with
    | some kept =>
      cases done
      refine ⟨?_, fun other different => ?_, Dict.keys_insert_nodup distinct _ _⟩
      · rw [Dict.get?_insert_self]
      · exact Dict.get?_insert_of_ne item kept different
    | none =>
      cases done
      refine ⟨?_, fun other different => ?_, swapErase_distinct distinct _⟩
      · rw [get?_swapErase distinct, if_pos rfl]
      · rw [get?_swapErase distinct, if_neg different]

theorem exists_deleteFrom {action : String × Json} {left : Option Json}
    (done : deletedFrom (item.get? action.1) action.2 = .ok left) :
    ∃ after, deleteFrom item action = .ok after := by
  unfold deleteFrom
  cases found : item.get? action.1 with
  | none => exact ⟨item, rfl⟩
  | some existing =>
    rw [found] at done
    have here : deleted existing action.2 = .ok left := done
    dsimp only
    rw [here]
    cases left with
    | none => exact ⟨_, rfl⟩
    | some kept => exact ⟨_, rfl⟩

/-- The deletions from one attribute, one after another. -/
def deletions (actions : List (String × Json)) (name : String) (held : Option Json) :
    Except UpdateError (Option Json) :=
  (actions.filter (·.1 = name)).foldlM (fun held action => deletedFrom held action.2) held

theorem deletions_cons_self {action : String × Json} (actions : List (String × Json))
    (held : Option Json) :
    deletions (action :: actions) action.1 held =
      (deletedFrom held action.2 >>= deletions actions action.1) := by
  rw [deletions, List.filter_cons_of_pos (by simp)]
  rfl

theorem deletions_cons_of_ne {action : String × Json} (actions : List (String × Json))
    {name : String} (different : action.1 ≠ name) (held : Option Json) :
    deletions (action :: actions) name held = deletions actions name held := by
  rw [deletions, List.filter_cons_of_neg (by simpa using different)]
  rfl

/-- A pass of deletions works on each attribute apart. -/
theorem deletes_attribute {actions : List (String × Json)} (distinct : (Dict.keys item).Nodup)
    (done : actions.foldlM deleteFrom item = .ok after) (name : String) :
    deletions actions name (item.get? name) = .ok (after.get? name) := by
  induction actions generalizing item with
  | nil =>
    cases done
    rfl
  | cons action actions ih =>
    obtain ⟨next, here, below⟩ := bind_ok done
    obtain ⟨own, others, distinct'⟩ := deleteFrom_attribute distinct here
    by_cases named : action.1 = name
    · subst named
      rw [deletions_cons_self, own]
      exact ih distinct' below
    · rw [deletions_cons_of_ne actions named, ← others name named]
      exact ih distinct' below

/-- A pass of deletions ends if it does so for each attribute apart. -/
theorem exists_deletes {actions : List (String × Json)} (distinct : (Dict.keys item).Nodup)
    (each : ∀ name, ∃ left, deletions actions name (item.get? name) = .ok left) :
    ∃ after, actions.foldlM deleteFrom item = .ok after := by
  induction actions generalizing item with
  | nil => exact ⟨item, rfl⟩
  | cons action actions ih =>
    obtain ⟨left, first⟩ := each action.1
    rw [deletions_cons_self] at first
    obtain ⟨middle, own, rest⟩ := bind_ok first
    obtain ⟨next, here⟩ := exists_deleteFrom own
    obtain ⟨own', others, distinct'⟩ := deleteFrom_attribute distinct here
    have each' (name : String) : ∃ left, deletions actions name (next.get? name) = .ok left := by
      by_cases named : action.1 = name
      · subst named
        rw [own] at own'
        cases own'
        exact ⟨left, rest⟩
      · rw [others name named, ← deletions_cons_of_ne actions named]
        exact each name
    obtain ⟨after, below⟩ := ih distinct' each'
    refine ⟨after, ?_⟩
    rw [List.foldlM_cons, here]
    exact below

end

/-! ### Updates -/

namespace Update

section

variable {update : ResolvedUpdate} {before after : Item}

/-- The passes of an update: what is set and removed, what is added, and what is deleted. -/
theorem apply_ok_iff : update.apply before = .ok after ↔ ∃ assigned summed : Item,
    update.set.foldlM (writeBy fun action => action.2.of before) before = .ok assigned ∧
      update.add.foldlM (writeBy fun action => added (before.get? action.1) action.2)
        (update.remove.foldl Dict.swapErase assigned) = .ok summed ∧
      update.delete.foldlM deleteFrom summed = .ok after := by
  constructor
  · intro done
    obtain ⟨assigned, set, done⟩ := bind_ok done
    obtain ⟨summed, add, delete⟩ := bind_ok done
    exact ⟨assigned, summed, set, add, delete⟩
  · rintro ⟨assigned, summed, set, add, delete⟩
    show (update.set.foldlM (writeBy fun action => action.2.of before) before >>= _) = _
    rw [set]
    show (update.add.foldlM (writeBy fun action => added (before.get? action.1) action.2)
      (update.remove.foldl Dict.swapErase assigned) >>= _) = _
    rw [add]
    exact delete

/-- What the passes in front of the deletions leave of an attribute. -/
theorem valueOf_passes {assigned summed : Item} (distinct : (Dict.keys before).Nodup)
    (set : update.set.foldlM (writeBy fun action => action.2.of before) before = .ok assigned)
    (add : update.add.foldlM (writeBy fun action => added (before.get? action.1) action.2)
      (update.remove.foldl Dict.swapErase assigned) = .ok summed) (name : String) :
    update.valueOf before name = deletions update.delete name (summed.get? name) := by
  obtain ⟨values, evaluated, assignedTo⟩ := writes_attribute set name
  obtain ⟨sums, computed, summedTo⟩ := writes_attribute add name
  rw [summedTo, get?_removed (writes_distinct distinct set), assignedTo, valueOf, on]
  dsimp only
  rw [evaluated, computed]
  rfl

/-- **An update does to every attribute what its actions on it do.** -/
theorem apply_attribute (distinct : (Dict.keys before).Nodup)
    (done : update.apply before = .ok after) (name : String) :
    update.valueOf before name = .ok (after.get? name) := by
  obtain ⟨assigned, summed, set, add, delete⟩ := apply_ok_iff.mp done
  have distinctRemoved := removed_distinct (writes_distinct distinct set) update.remove
  rw [valueOf_passes distinct set add]
  exact deletes_attribute (writes_distinct distinctRemoved add) delete name

/-- **An update can be applied just when its actions on every attribute can.** -/
theorem exists_apply_iff (distinct : (Dict.keys before).Nodup) :
    (∃ after, update.apply before = .ok after) ↔
      ∀ name, ∃ left, update.valueOf before name = .ok left := by
  constructor
  · rintro ⟨after, done⟩ name
    exact ⟨_, apply_attribute distinct done name⟩
  · intro each
    -- every value to set and every sum stands among the actions of its attribute
    have evaluated : ∀ action ∈ update.set, ∃ value, action.2.of before = .ok value := by
      intro action member
      obtain ⟨left, done⟩ := each action.1
      obtain ⟨values, here, -⟩ := bind_ok done
      have own := exists_mapM_ok_iff.mp ⟨values, here⟩
      exact own action (List.mem_filter.mpr ⟨member, decide_eq_true rfl⟩)
    have computed : ∀ action ∈ update.add,
        ∃ sum, added (before.get? action.1) action.2 = .ok sum := by
      intro action member
      obtain ⟨left, done⟩ := each action.1
      obtain ⟨values, -, done⟩ := bind_ok done
      obtain ⟨sums, here, -⟩ := bind_ok done
      have own := exists_mapM_ok_iff.mp ⟨sums, here⟩
      exact own action (List.mem_filter.mpr ⟨member, decide_eq_true rfl⟩)
    obtain ⟨assigned, set⟩ := exists_writes_iff.mpr evaluated
    obtain ⟨summed, add⟩ : ∃ summed : Item, update.add.foldlM
        (writeBy fun action => added (before.get? action.1) action.2)
          (update.remove.foldl Dict.swapErase assigned) = .ok summed :=
      exists_writes_iff.mpr computed
    have distinctRemoved := removed_distinct (writes_distinct distinct set) update.remove
    obtain ⟨after, delete⟩ := exists_deletes (writes_distinct distinctRemoved add) fun name => by
      rw [← valueOf_passes distinct set add]
      exact each name
    exact ⟨after, apply_ok_iff.mpr ⟨assigned, summed, set, add, delete⟩⟩

/-! ### Actions on other attributes -/

/-- The actions on an attribute among those on it are all of them. -/
theorem on_self (update : ResolvedUpdate) (name : String) :
    (update.on name).on name = update.on name := by
  simp [on]

/-- Among the actions on an attribute there are none on another. -/
theorem on_of_ne (update : ResolvedUpdate) {name other : String} (different : name ≠ other) :
    (update.on name).on other = {} := by
  have none {α : Type} (key : α → String) (actions : List α) :
      (actions.filter (key · = name)).filter (key · = other) = [] := by
    rw [List.filter_filter, List.filter_eq_nil_iff]
    intro action _ both
    simp only [Bool.and_eq_true, decide_eq_true_eq] at both
    exact different (both.2.symm.trans both.1)
  have removed : (update.remove.filter (· = name)).filter (· = other) = [] := none id update.remove
  rw [on, on]
  dsimp only
  rw [none, removed, none, none]

theorem valueOf_congr {other : ResolvedUpdate} {name : String}
    (same : update.on name = other.on name) :
    update.valueOf before name = other.valueOf before name := by
  rw [valueOf, valueOf, same]

/-- Without actions on it an attribute stays as it is. -/
theorem valueOf_of_none {name : String} (none : update.on name = {}) :
    update.valueOf before name = .ok (before.get? name) := by
  rw [valueOf, none]
  rfl

theorem on_of_not_names {name : String} (unnamed : ¬ update.Names name) : update.on name = {} := by
  have none {α : Type} {key : α → String} {actions : List α}
      (absent : ¬ ∃ action ∈ actions, key action = name) : actions.filter (key · = name) = [] := by
    rw [List.filter_eq_nil_iff]
    exact fun action member named => absent ⟨action, member, of_decide_eq_true named⟩
  simp only [Names, not_or] at unnamed
  obtain ⟨set, remove, add, delete⟩ := unnamed
  have kept : update.remove.filter (· = name) = [] := by
    rw [List.filter_eq_nil_iff]
    rintro other member named
    exact remove (of_decide_eq_true named ▸ member)
  rw [on, none set, kept, none add, none delete]

/-- **The actions on an attribute can be applied alone, and do to it what they do among others.** -/
theorem apply_on (distinct : (Dict.keys before).Nodup) (done : update.apply before = .ok after)
    (name : String) :
    ∃ reduced, (update.on name).apply before = .ok reduced ∧
      reduced.get? name = after.get? name := by
  have own : (update.on name).valueOf before name = .ok (after.get? name) := by
    rw [valueOf_congr (on_self update name)]
    exact apply_attribute distinct done name
  obtain ⟨reduced, alone⟩ : ∃ reduced, (update.on name).apply before = .ok reduced := by
    refine (exists_apply_iff distinct).mpr fun other => ?_
    by_cases same : name = other
    · subst same
      exact ⟨_, own⟩
    · exact ⟨_, valueOf_of_none (on_of_ne update same)⟩
  have here := apply_attribute distinct alone name
  rw [own] at here
  exact ⟨reduced, alone, (Except.ok.inj here).symm⟩

end

end Update

/-! ### Exchanges -/

/-- Two attributes exchanged. -/
def exchange (a b : String) : ResolvedUpdate :=
  { set := [(a, .operand (.attribute b)), (b, .operand (.attribute a))] }

/-- An operand's value is what the attribute that it names holds. -/
theorem get?_of_operand {item : Item} {name : String} {value : Json}
    (found : (Operand.attribute name).of item = .ok value) : item.get? name = some value := by
  simp only [Operand.of] at found
  split at found
  · rename_i held
    cases found
    exact held
  · cases found

theorem exchange_apply {a b : String} {before after : Item}
    (done : (exchange a b).apply before = .ok after) :
    after.get? a = before.get? b ∧ after.get? b = before.get? a := by
  obtain ⟨assigned, set, others⟩ := bind_ok done
  obtain ⟨first, here, set⟩ := bind_ok set
  obtain ⟨second, there, same⟩ := bind_ok set
  cases same
  cases others
  obtain ⟨y, foundB, same⟩ := bind_ok here
  cases same
  obtain ⟨x, foundA, same⟩ := bind_ok there
  cases same
  have atA : before.get? a = some x := get?_of_operand foundA
  have atB : before.get? b = some y := get?_of_operand foundB
  show Dict.get? ((before.insert a y).insert b x) a = _ ∧
    Dict.get? ((before.insert a y).insert b x) b = _
  rw [Dict.get?_insert, Dict.get?_insert, Dict.get?_insert_self, if_pos rfl, atA, atB]
  refine ⟨?_, rfl⟩
  split
  · rename_i same
    rw [← atA, ← atB, same]
  · rfl

/-! ### All attributes -/

/-- **Attributes do not depend on each other's actions.** When an update is applied, an attribute
that no action names stays as it is; every other one becomes what its own actions make of it, with
values and sums computed from the item before, so that two attributes can be exchanged; the actions
on it could as well have been applied alone; and the clauses of the text may stand in any other
order that differs only between kinds. -/
theorem updated_apart {expression : Expression} {update : ResolvedUpdate} {before after : Item}
    (distinct : (Dict.keys before).Nodup) (read : expression.update = .ok update)
    (done : update.apply before = .ok after) :
    (∀ name, ¬ update.Names name → after.get? name = before.get? name) ∧
      (∀ name, update.valueOf before name = .ok (after.get? name)) ∧
      (∀ a b, update = exchange a b →
        after.get? a = before.get? b ∧ after.get? b = before.get? a) ∧
      (∀ name, ∃ reduced, (update.on name).apply before = .ok reduced ∧
        reduced.get? name = after.get? name) ∧
      ∃ pieces : List Piece, (∀ piece ∈ pieces, expression.IsClause piece) ∧
        Spells (pieces.flatMap Piece.tokens) expression.text.toList ∧
          ∀ others, Rearranged others pieces →
            (∃ text : String, Spells (others.flatMap Piece.tokens) text.toList) ∧
              ∀ text : String, Spells (others.flatMap Piece.tokens) text.toList →
                (expression.reworded text).update = .ok update := by
  refine ⟨fun name unnamed => ?_, Update.apply_attribute distinct done, fun a b same => ?_,
    Update.apply_on distinct done, update_of_rearranged read⟩
  · have kept := Update.apply_attribute distinct done name
    rw [Update.valueOf_of_none (Update.on_of_not_names unnamed)] at kept
    exact (Except.ok.inj kept).symm
  · rw [same] at done
    exact exchange_apply done

namespace Crowded

/-- A string attribute and a set of strings. -/
def text (content : String) : Json := .object [("S", .string content)]
def texts (contents : List String) : Json := .object [("SS", .array (contents.map .string))]

/-- Two attributes exchanged, and actions of all kinds on a third. -/
def expression : Expression where
  text := "SET a = b, b = a, t = :more REMOVE t ADD t :more DELETE t :gone"
  values := [(":more", texts ["x", "y"]), (":gone", texts ["y"])]

/-- What it is read as. -/
def update : ResolvedUpdate where
  set := [("a", .operand (.attribute "b")), ("b", .operand (.attribute "a")),
    ("t", .operand (.value (texts ["x", "y"])))]
  remove := ["t"]
  add := [("t", texts ["x", "y"])]
  delete := [("t", texts ["y"])]

/-- The item before, and what becomes of it. -/
def before : Item :=
  [("a", text "1"), ("t", texts ["x", "z"]), ("b", text "2"), ("c", text "3")]
def after : Item :=
  [("a", text "2"), ("c", text "3"), ("b", text "1"), ("t", texts ["x", "z"])]

theorem actions_apart : expression.update = .ok update ∧ update.apply before = .ok after ∧
    (Dict.keys before).Nodup ∧ after.get? "c" = before.get? "c" ∧
    ∃ reduced, (update.on "t").apply before = .ok reduced ∧
      reduced.get? "t" = some (texts ["x", "z"]) := by
  have distinct : (Dict.keys before).Nodup := by decide
  have read : expression.update = .ok update := by
    have split : Table.tokens expression.text.toList = .ok
        [.word "SET", .word "a", .sign .eq, .word "b", .comma, .word "b", .sign .eq, .word "a",
          .comma, .word "t", .sign .eq, .value ":more", .word "REMOVE", .word "t", .word "ADD",
          .word "t", .value ":more", .word "DELETE", .word "t", .value ":gone"] := by
      decide +kernel
    rw [Expression.update, Expression.tokens, split]
    rfl
  have done : update.apply before = .ok after := by rfl
  have unnamed : ¬ update.Names "c" := by simp [Update.Names, update]
  obtain ⟨unchanged, -, -, alone, -⟩ := updated_apart distinct read done
  exact ⟨read, done, distinct, unchanged "c" unnamed, alone "t"⟩

end Crowded

end FieldResolver.Table

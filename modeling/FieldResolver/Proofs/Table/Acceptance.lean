/-
**Which values can be added and deleted.**

Values that are added or deleted are checked against what the attribute holds, and against nothing
else. Where the attribute is missing nothing is checked: any value can be added, and any be deleted,
which then does nothing. What is deleted has to be an array of the type of the attribute, which may
be a list as well as a set.

* `Addable`, `Deletable`: what the checks let pass, with `added_ok_iff` and `deletedFrom_ok_iff`;
* `Update.upTo`: an update with the first of its deletions only, for the item when the turn of the
  next one comes;
* `Update.Accepted`, `Update.exists_apply_iff_accepted`: so much and no more is checked;
* `TakesOut`: a deletion takes members out of one attribute and does nothing else;
* `operands_checked`: requests with updates that are not accepted fail;
* `Unchecked.operands_stored`: requests that the wording of the errors excludes, and that do not
  fail.
-/

import FieldResolver.Proofs.Table.Attributes
import FieldResolver.Proofs.Table.Creation

namespace FieldResolver.Table

open Fallible
open Expression (ResolvedUpdate)

/-! ### One value -/

/-- Whether a value can be added to what an attribute holds: anything to nothing, a number to a
number, and a set to a set of its type. -/
def Addable (held : Option Json) (value : Json) : Prop :=
  ∀ existing ∈ held,
    ((Attribute.float? existing).isSome ∧ (Attribute.float? value).isSome) ∨
      ∃ type members extra, isSet type = true ∧
        existing = Attribute.tagged type (.array members) ∧
          value = Attribute.tagged type (.array extra)

/-- Whether a value can be deleted from what an attribute holds: anything from nothing, and from an
array an array of its type. -/
def Deletable (held : Option Json) (value : Json) : Prop :=
  ∀ existing ∈ held, ∃ type members removed,
    existing = Attribute.tagged type (.array members) ∧
      value = Attribute.tagged type (.array removed)

/-- What is left of an array of a type when members are deleted: nothing if no member is left. -/
def remaining (type : String) (members removed : List Json) : Option Json :=
  let kept := members.filter fun member => !member.isIn removed
  if kept.isEmpty then none else some (Attribute.tagged type (.array kept))

section

variable {held : Option Json} {existing value content : Json} {type : String}

theorem typed?_eq_some (typed : Attribute.typed? value = some (type, content)) :
    value = Attribute.tagged type content := by
  unfold Attribute.typed? at typed
  split at typed
  · cases typed
    rfl
  · cases typed

theorem typed?_of_float? (number : (Attribute.float? value).isSome) :
    ∃ text, value = Attribute.tagged "N" (.string text) := by
  unfold Attribute.float? at number
  split at number
  · exact ⟨_, rfl⟩
  · cases number

/-- **What can be added.** -/
theorem added_ok_iff : (∃ sum, added held value = .ok sum) ↔ Addable held value := by
  constructor
  · rintro ⟨sum, done⟩ existing rfl
    unfold added at done
    simp only at done
    split at done
    · split at done
      · rename_i x y
        exact .inl ⟨Option.isSome_of_eq_some x, Option.isSome_of_eq_some y⟩
      · cases done
    · rename_i type extra _ typed
      split at done
      · rename_i set
        split at done
        · rename_i found members typed'
          split at done
          · rename_i same
            subst same
            exact .inr ⟨_, members, extra, set, typed?_eq_some typed', typed?_eq_some typed⟩
          · cases done
        · cases done
      · cases done
    · cases done
  · intro able
    cases held with
    | none => exact ⟨value, rfl⟩
    | some existing =>
      obtain ⟨first, second⟩ | ⟨type, members, extra, set, rfl, rfl⟩ := able existing rfl
      · obtain ⟨x, readX⟩ := Option.isSome_iff_exists.mp first
        obtain ⟨y, readY⟩ := Option.isSome_iff_exists.mp second
        obtain ⟨text, rfl⟩ := typed?_of_float? second
        refine ⟨Attribute.ofFloat (x + y), ?_⟩
        simp only [added, Attribute.typed?, Attribute.tagged, readX]
        rw [Attribute.tagged] at readY
        rw [readY]
      · have one : type = "SS" ∨ type = "NS" ∨ type = "BS" := by
          simpa [isSet, or_assoc] using set
        obtain rfl | rfl | rfl := one <;> exact ⟨_, rfl⟩

/-- **What deleting leaves.** -/
theorem deleted_ok_iff {left : Option Json} :
    deleted existing value = .ok left ↔ ∃ type members removed,
      existing = Attribute.tagged type (.array members) ∧
        value = Attribute.tagged type (.array removed) ∧ left = remaining type members removed := by
  constructor
  · intro done
    unfold deleted at done
    split at done
    · rename_i type members other removed here there
      split at done
      · rename_i same
        subst same
        cases done
        exact ⟨_, members, removed, typed?_eq_some here, typed?_eq_some there, rfl⟩
      · cases done
    · cases done
  · rintro ⟨type, members, removed, rfl, rfl, rfl⟩
    simp only [deleted, Attribute.typed?, Attribute.tagged, if_pos, remaining]

/-- **What can be deleted.** -/
theorem deletedFrom_ok_iff :
    (∃ left, deletedFrom held value = .ok left) ↔ Deletable held value := by
  constructor
  · rintro ⟨left, done⟩ existing rfl
    obtain ⟨type, members, removed, here, there, -⟩ := deleted_ok_iff.mp done
    exact ⟨type, members, removed, here, there⟩
  · intro able
    cases held with
    | none => exact ⟨none, rfl⟩
    | some existing =>
      obtain ⟨type, members, removed, here, there⟩ := able existing rfl
      exact ⟨_, deleted_ok_iff.mpr ⟨type, members, removed, here, there, rfl⟩⟩

end

/-! ### Updates -/

namespace Update

/-- An update with some deletions in the place of its own. -/
def upTo (update : ResolvedUpdate) (deletions : List (String × Json)) : ResolvedUpdate :=
  { update with delete := deletions }

/-- Whether an update passes all checks on an item: its values can be computed, what it adds can be
added to the item, and what it deletes can be deleted when its turn comes. -/
structure Accepted (update : ResolvedUpdate) (item : Item) : Prop where
  set : ∀ action ∈ update.set, ∃ value, action.2.of item = .ok value
  add : ∀ action ∈ update.add, Addable (item.get? action.1) action.2
  delete : ∀ front action back, update.delete = front ++ action :: back →
    ∀ sofar, (update.upTo front).apply item = .ok sofar → Deletable (sofar.get? action.1) action.2

section

variable {update : ResolvedUpdate} {item after : Item}

/-- Deletions come last. -/
theorem apply_upTo (update : ResolvedUpdate) (item : Item) (front back : List (String × Json)) :
    (update.upTo (front ++ back)).apply item =
      (update.upTo front).apply item >>= fun sofar => back.foldlM deleteFrom sofar := by
  simp only [apply, upTo, bind_assoc, List.foldlM_append]

theorem exists_deleteFrom_iff {action : String × Json} :
    (∃ next, deleteFrom item action = .ok next) ↔ Deletable (item.get? action.1) action.2 := by
  rw [← deletedFrom_ok_iff]
  constructor
  · rintro ⟨next, done⟩
    unfold deleteFrom at done
    split at done
    · rename_i missing
      exact ⟨none, by rw [missing]; rfl⟩
    · rename_i existing found
      obtain ⟨left, here, -⟩ := bind_ok done
      exact ⟨left, by rw [found]; exact here⟩
  · rintro ⟨left, done⟩
    exact exists_deleteFrom done

/-- The passes in front of the deletions end just when values and sums can be computed. -/
theorem exists_upTo_nil_iff :
    (∃ summed, (update.upTo []).apply item = .ok summed) ↔
      (∀ action ∈ update.set, ∃ value, action.2.of item = .ok value) ∧
        ∀ action ∈ update.add, Addable (item.get? action.1) action.2 := by
  simp only [← added_ok_iff]
  constructor
  · rintro ⟨summed, done⟩
    obtain ⟨assigned, summed, set, add, -⟩ := apply_ok_iff.mp done
    exact ⟨exists_writes_iff.mp ⟨assigned, set⟩, exists_writes_iff.mp ⟨summed, add⟩⟩
  · rintro ⟨evaluated, computed⟩
    obtain ⟨assigned, set⟩ := exists_writes_iff.mpr evaluated
    obtain ⟨summed, add⟩ : ∃ summed : Item, update.add.foldlM
        (writeBy fun action => added (item.get? action.1) action.2)
          (update.remove.foldl Dict.swapErase assigned) = .ok summed :=
      exists_writes_iff.mpr computed
    exact ⟨summed, apply_ok_iff.mpr ⟨assigned, summed, set, add, rfl⟩⟩

/-- **So much and no more is checked when an update is applied.** -/
theorem exists_apply_iff_accepted :
    (∃ after, update.apply item = .ok after) ↔ update.Accepted item := by
  have whole : update.apply item = (update.upTo []).apply item >>= fun summed =>
      update.delete.foldlM deleteFrom summed := apply_upTo update item [] update.delete
  constructor
  · rintro ⟨after, done⟩
    rw [whole] at done
    obtain ⟨summed, passes, deletes⟩ := bind_ok done
    obtain ⟨set, add⟩ := exists_upTo_nil_iff.mp ⟨summed, passes⟩
    refine ⟨set, add, fun front action back split sofar reached => ?_⟩
    have reached : (update.upTo ([] ++ front)).apply item = .ok sofar := reached
    rw [apply_upTo, passes] at reached
    have turns := exists_foldlM_ok_iff_turns.mp ⟨after, deletes⟩
    exact exists_deleteFrom_iff.mp (turns front action back split sofar reached)
  · rintro ⟨set, add, delete⟩
    obtain ⟨summed, passes⟩ := exists_upTo_nil_iff.mpr ⟨set, add⟩
    rw [whole, passes]
    refine exists_foldlM_ok_iff_turns.mpr fun front action back split sofar reached => ?_
    refine exists_deleteFrom_iff.mpr (delete front action back split sofar ?_)
    show (update.upTo ([] ++ front)).apply item = .ok sofar
    rw [apply_upTo, passes]
    exact reached

end

end Update

/-- What a deletion does to an item: it takes members out of one attribute, which has to hold an
array of the type of what is deleted, or else is missing and stays so. -/
structure TakesOut (action : String × Json) (before after : Item) : Prop where
  others : ∀ other, action.1 ≠ other → after.get? other = before.get? other
  missing : before.get? action.1 = none → after.get? action.1 = none
  members : ∀ existing, before.get? action.1 = some existing → ∃ type members removed,
    existing = Attribute.tagged type (.array members) ∧
      action.2 = Attribute.tagged type (.array removed) ∧
        after.get? action.1 = remaining type members removed

theorem deleteFrom_takesOut {before after : Item} {action : String × Json}
    (distinct : (Dict.keys before).Nodup) (done : deleteFrom before action = .ok after) :
    TakesOut action before after := by
  obtain ⟨own, others, -⟩ := deleteFrom_attribute distinct done
  refine ⟨others, fun missing => ?_, fun existing found => ?_⟩
  · rw [missing] at own
    exact (Except.ok.inj own).symm
  · rw [found] at own
    exact deleted_ok_iff.mp own

/-! ### Requests -/

section

variable {store : Store} {name : String} {request : Json} {fields : KeyedRequest}
  {update : ResolvedUpdate} {item : Item}

/-- An update that cannot be applied fails as such. -/
theorem updateItem_of_error {table : Contents} {cause : UpdateError}
    (met : checkCondition fields.condition (table.find? fields.key) = .ok ())
    (failed : update.apply ((table.find? fields.key).getD fields.key) = .error cause) :
    Store.updateItem table fields update = .error (.update cause) := by
  rw [Store.updateItem, met]
  show ((update.apply ((table.find? fields.key).getD fields.key)).mapError Failure.update >>= _) = _
  rw [failed]
  rfl

/-- **What is added and deleted is checked against what the attribute holds.** When its condition is
met, a request with an update that is not accepted fails, as a request that is not valid. Accepted
are the updates whose values can be computed, whose additions fit what the attributes hold before
and whose deletions fit what they hold when it is their turn; a missing attribute fits everything.
Each deletion only takes members out of an array, or does nothing where the attribute is missing. -/
theorem operands_checked (built : Built store) (valid : request.Valid)
    (named : operation? request = some .updateItem)
    (read : KeyedRequest.ofJson? request = some fields)
    (resolved : Store.updateOf fields = .ok update)
    (met : checkCondition fields.condition ((store.table name).find? fields.key) = .ok ())
    (start : ((store.table name).find? fields.key).getD fields.key = item) :
    ((∃ after, update.apply item = .ok after) ↔ update.Accepted item) ∧
      (¬ update.Accepted item → ∃ failure, (store.execute name request).1 = .error failure ∧
        failure.kind = "DynamoDB:ValidationException") ∧
      ∀ front action back, update.delete = front ++ action :: back →
        ∀ sofar, (update.upTo front).apply item = .ok sofar →
          ∀ next, (update.upTo (front ++ [action])).apply item = .ok next →
            TakesOut action sofar next := by
  refine ⟨Update.exists_apply_iff_accepted, fun refused => ?_,
    fun front action back _ sofar reached next done => ?_⟩
  · rw [← Update.exists_apply_iff_accepted] at refused
    cases applied : update.apply item with
    | ok after => exact absurd ⟨after, applied⟩ refused
    | error cause =>
      have same : ((store.table name).learnKey fields.key).find? fields.key =
          (store.table name).find? fields.key := by
        rw [Contents.find?, items_learnKey, ← Contents.find?]
      have failed := @updateItem_of_error fields update
        ((store.table name).learnKey fields.key) cause (by rw [same]; exact met)
        (by rw [same, start]; exact applied)
      refine ⟨.update cause, ?_, rfl⟩
      rw [Store.execute_updateItem store name named read resolved, Store.write]
      simp only [failed]
  · have formed : WellFormed item := by
      rw [← start]
      cases found : (store.table name).find? fields.key with
      | none => exact KeyedRequest.key_formed valid read
      | some existing =>
        exact ((built.kept name).entries _ (Index.mem_of_get? found)).formed
    have values : Update.Valid (update.upTo front) := by
      obtain ⟨set, add⟩ := KeyedRequest.update_valid valid read resolved
      exact ⟨set, add⟩
    rw [Update.apply_upTo, reached] at done
    have done : [action].foldlM deleteFrom sofar = .ok next := done
    rw [List.foldlM_cons] at done
    obtain ⟨after, here, same⟩ := bind_ok done
    cases same
    exact deleteFrom_takesOut (Update.apply_wellFormed values formed reached).distinct here

end

/-! ### Operands that nothing checks -/

namespace Unchecked

/-- A text, and a list of texts. -/
def text (content : String) : Json := Attribute.tagged "S" (.string content)
def list (contents : List String) : Json := Attribute.tagged "L" (.array (contents.map text))

/-- A put of an item with a list. -/
def put : Json :=
  .object
    [("operation", .string "PutItem"), ("key", .object [("id", text "1")]),
      ("attributeValues", .object [("entries", list ["a", "b"])])]

/-- The store after the put, with its item. -/
def store : Store := (Store.execute [] "posts" put).2
def item : Item := [("entries", list ["a", "b"]), ("id", text "1")]

theorem built : Built store := by
  refine .request .empty "posts" ?_
  simp [put, text, list, Attribute.tagged, Json.Valid, Json.FieldsValid, Json.ItemsValid, Dict.keys]

/-- An update with one value, and its fields. -/
def update (expression : String) (value : Json) : Json :=
  .object
    [("operation", .string "UpdateItem"), ("key", .object [("id", text "1")]),
      ("update", .object
        [("expression", .string expression), ("expressionValues", .object [(":v", value)])])]
def fields (expression : String) (value : Json) : KeyedRequest where
  key := [("id", text "1")]
  update := some { text := expression, values := [(":v", value)] }

/-- What an addition and a deletion are read as. -/
theorem addition {expression name : String} (value : Json)
    (split : Table.tokens expression.toList = .ok [.word "ADD", .word name, .value ":v"]) :
    Store.updateOf (fields expression value) = .ok { add := [(name, value)] } := by
  rw [Store.updateOf, fields]
  simp only [Expression.update, Expression.tokens, split]
  rfl

theorem deletion {expression name : String} (value : Json)
    (split : Table.tokens expression.toList = .ok [.word "DELETE", .word name, .value ":v"]) :
    Store.updateOf (fields expression value) = .ok { delete := [(name, value)] } := by
  rw [Store.updateOf, fields]
  simp only [Expression.update, Expression.tokens, split]
  rfl

/-- **A text is added and deleted where the attribute is missing, and members are deleted from a
list.** -/
theorem operands_stored :
    (store.execute "posts" (update "ADD note :v" (text "x"))).1 =
        .ok (.object [("entries", .array [.string "a", .string "b"]), ("id", .string "1"),
          ("note", .string "x")]) ∧
      (store.execute "posts" (update "DELETE note :v" (text "x"))).1 =
        .ok (.object [("entries", .array [.string "a", .string "b"]), ("id", .string "1")]) ∧
      (store.execute "posts" (update "DELETE entries :v" (list ["a"]))).1 =
        .ok (.object [("entries", .array [.string "b"]), ("id", .string "1")]) := by
  have note : Table.tokens "ADD note :v".toList = .ok
      [.word "ADD", .word "note", .value ":v"] := by decide +kernel
  have missing : Table.tokens "DELETE note :v".toList = .ok
      [.word "DELETE", .word "note", .value ":v"] := by decide +kernel
  have entries : Table.tokens "DELETE entries :v".toList = .ok
      [.word "DELETE", .word "entries", .value ":v"] := by decide +kernel
  refine ⟨?_, ?_, ?_⟩
  · rw [Store.execute_updateItem store "posts" rfl rfl (addition (text "x") note)]
    rfl
  · rw [Store.execute_updateItem store "posts" rfl rfl (deletion (text "x") missing)]
    rfl
  · rw [Store.execute_updateItem store "posts" rfl rfl (deletion (list ["a"]) entries)]
    rfl

/-- A text that is deleted from the list is refused. -/
theorem text_refused : ∃ failure,
    (store.execute "posts" (update "DELETE entries :v" (text "a"))).1 = .error failure ∧
      failure.kind = "DynamoDB:ValidationException" := by
  have valid : (update "DELETE entries :v" (text "a")).Valid := by
    simp [update, text, Attribute.tagged, Json.Valid, Json.FieldsValid, Dict.keys]
  have entries : Table.tokens "DELETE entries :v".toList = .ok
      [.word "DELETE", .word "entries", .value ":v"] := by decide +kernel
  obtain ⟨-, refused, -⟩ := @operands_checked store "posts" _ _ _ item built valid rfl rfl
    (deletion (text "a") entries) rfl rfl
  refine refused fun accepted => ?_
  have turn := accepted.delete [] ("entries", text "a") [] rfl item rfl (list ["a", "b"]) rfl
  obtain ⟨type, members, removed, -, same⟩ := turn
  simp [text, Attribute.tagged] at same

end Unchecked

end FieldResolver.Table

/-
**What an evaluation starts with.**

The context is put on an empty heap and bound under two names. Its fields are found there as they
were put, and the arguments under a second name as well.

* `startState_map`, `startState_contains`: the map of the context and the names in it;
* `startState_get?`: the values that are found under them, and what they are as long as the heap
  still holds them.
-/

import FieldResolver.Proofs.Dict
import FieldResolver.Proofs.Template.Memory
import FieldResolver.Template.Evaluator

namespace FieldResolver

/-! ### The names of a context -/

namespace Context

variable (context : Context)

theorem templateJson_arguments :
    context.templateJson.field? "arguments" = some context.arguments := by
  simp [templateJson, Json.field?, Json.object?, Dict.get?]

theorem templateJson_error :
    context.templateJson.field? "error" = context.error.map errorJson := by
  cases failed : context.error <;> simp [templateJson, Json.field?, Json.object?, Dict.get?, failed]

theorem templateJson_result : context.templateJson.field? "result" = some context.result := by
  simp [templateJson, Json.field?, Json.object?, Dict.get?]

theorem templateJson_previous :
    context.templateJson.field? "prev" = some (.object [("result", context.previous)]) := by
  simp [templateJson, Json.field?, Json.object?, Dict.get?]

theorem templateJson_stash :
    context.templateJson.field? "stash" = some (.object context.stash) := by
  simp [templateJson, Json.field?, Json.object?, Dict.get?]

end Context

namespace Template

/-- The map that an evaluation starts with: the fields of the context, and the arguments once
more. -/
theorem startState_map (context : Context) {fields : Dict Json}
    (shown : context.templateJson = .object fields) :
    ∃ arguments : Value, (Heap.ofFields {} fields).1.get? "arguments" = some arguments ∧
      (startState context).heap.map (rootPlace context) =
        (Heap.ofFields {} fields).1.insert "args" arguments ∧
      (Heap.ofFields {} fields).2.Extends (startState context).heap := by
  have given : fields.get? "arguments" = some context.arguments := by
    have there := context.templateJson_arguments
    rwa [shown] at there
  obtain ⟨_, found, _⟩ := Heap.get?_ofFields {} given
  refine ⟨_, found, ?_⟩
  unfold startState rootPlace
  rw [shown]
  simp only [Heap.ofJson, Heap.allocMap]
  generalize Heap.ofFields {} fields = stored at found ⊢
  obtain ⟨entries, heap⟩ := stored
  have there : Heap.map { heap with maps := heap.maps.push entries } heap.maps.size = entries :=
    heap.map_allocMap entries
  simp only [there, found]
  refine ⟨Heap.map_setMap_self _ _ (by simp), ?_⟩
  exact (Heap.extends_allocMap heap entries).setMap _ (Nat.lt_irrefl _)

/-- The two names of the context. -/
theorem startState_bindings (context : Context) :
    (startState context).bindings =
      [("context", .map (rootPlace context)), ("ctx", .map (rootPlace context))] :=
  rfl

/-- **The map that an evaluation starts with** under `ctx` has the names of the context, and `args`
as another name of the arguments. -/
theorem startState_contains (context : Context) {name : String} (proper : name ≠ "args") :
    (startState context).bindings.get? "ctx" = some (.map (rootPlace context)) ∧
      ((startState context).heap.map (rootPlace context)).contains name =
        (context.templateJson.field? name).isSome := by
  obtain ⟨fields, shown⟩ : ∃ fields, context.templateJson = .object fields := ⟨_, rfl⟩
  obtain ⟨arguments, _, entries, _⟩ := startState_map context shown
  refine ⟨by rw [startState_bindings]; rfl, ?_⟩
  rw [entries, Dict.contains, Dict.get?_insert_of_ne _ _ proper.symm, shown]
  show _ = (Dict.get? fields name).isSome
  rw [Bool.eq_iff_iff, ← Option.ne_none_iff_isSome, ← Option.ne_none_iff_isSome, not_iff_not,
    Dict.get?_eq_none_iff, Dict.get?_eq_none_iff, Heap.keys_ofFields]

/-- What the context shows under a name. -/
def seenAs (context : Context) (name : String) : Option Json :=
  context.templateJson.field? (if name = "args" then "arguments" else name)

/-- **The values that an evaluation starts with** under the names of the context are written out as
templates see them, as long as the heap holds what it starts with. -/
theorem startState_get? (context : Context) {name : String} {value : Json}
    (seen : seenAs context name = some value) :
    ∃ stored : Value,
      ((startState context).heap.map (rootPlace context)).get? name = some stored ∧
        ∀ heap : Heap, (startState context).heap.Extends heap →
          heap.json stored = value.narrowed := by
  obtain ⟨fields, shown⟩ : ∃ fields, context.templateJson = .object fields := ⟨_, rfl⟩
  obtain ⟨arguments, found, entries, more⟩ := startState_map context shown
  rw [seenAs, shown] at seen
  obtain ⟨before, read, stored⟩ := Heap.get?_ofFields {} seen
  refine ⟨(before.ofJson value).1, ?_, fun heap later =>
    Heap.json_ofJson before value (stored.trans (more.trans later))⟩
  rw [entries, Dict.get?_insert]
  by_cases again : name = "args"
  · subst again
    rw [if_pos rfl, ← found]
    exact read
  · rw [if_neg (Ne.symm again)]
    rwa [if_neg again] at read

end Template

end FieldResolver

/-
**Evaluators in use.**

An evaluator is used for any texts in any contexts, and now and then it is told to forget. Whatever
it was used for, an evaluation comes to what it comes to on a new evaluator at the same time, and
the texts that it keeps are those evaluated since it last forgot that are templates, each with its
own nodes. Identifiers that a template draws are the exception: they are never the same twice.

* `Use`, `Evaluator.behind`: a new evaluator behind uses in order;
* `sourcesSince`: the texts evaluated since the last time that it forgot;
* `Keeps`: whether an evaluator keeps just the templates among some texts, each once;
  `Keeps.evaluate` and `keeps_clear` are what one use preserves, `keeps_behind` what all do;
* `Evaluator.behind_uses`: what an evaluator answers and keeps at any point.
-/

import Mathlib.Data.List.Dedup
import Mathlib.Data.List.Induction
import FieldResolver.Proofs.Template.Cache

namespace FieldResolver.Template

/-- What is done with an evaluator. -/
inductive Use where
  | evaluate (surroundings : Surroundings) (source : String) (context : Context)
  | clear

/-- The texts evaluated since the evaluator last forgot, in order. -/
def sourcesSince (uses : List Use) : List String :=
  uses.foldl (fun sources use =>
    match use with
    | .evaluate _ source _ => sources ++ [source]
    | .clear => []) []

namespace Evaluator

/-- An evaluator behind one more use. -/
def use (evaluator : Evaluator) : Use → Evaluator
  | .evaluate surroundings source context => (evaluator.evaluate surroundings source context).2.2
  | .clear => evaluator.clear

/-- A new evaluator behind uses in order. -/
def behind (uses : List Use) : Evaluator := uses.foldl use {}

/-- Whether an evaluator keeps just the templates among some texts, each once and with its nodes. -/
structure Keeps (evaluator : Evaluator) (sources : List String) : Prop where
  distinct : (Dict.keys evaluator.parsed).Nodup
  known : ∀ source nodes, evaluator.parsed.get? source = some nodes ↔
    source ∈ sources ∧ nodesOf source = .ok nodes

section

variable {evaluator : Evaluator} {sources : List String}

theorem keeps_empty : Keeps {} [] where
  distinct := List.nodup_nil
  known source nodes := by simp

/-- Forgetting leaves nothing. -/
theorem keeps_clear (evaluator : Evaluator) : evaluator.clear.Keeps [] := keeps_empty

theorem Keeps.sound (keeps : evaluator.Keeps sources) : evaluator.Sound :=
  fun source nodes found => ((keeps.known source nodes).mp found).2

/-- One more text is kept if it is a template. -/
theorem Keeps.evaluate (keeps : evaluator.Keeps sources) (surroundings : Surroundings)
    (source : String) (context : Context) :
    (evaluator.evaluate surroundings source context).2.2.Keeps (sources ++ [source]) := by
  have known := keeps.known
  rw [evaluate_evaluator]
  cases found : evaluator.parsed.get? source with
  | some nodes =>
    have unchanged : (evaluator.compile source).2 = evaluator := by
      rw [compile, found]
    rw [unchanged]
    refine ⟨keeps.distinct, fun other nodes' => ?_⟩
    have member : source ∈ sources := ((known source nodes).mp found).1
    rw [known, List.mem_append, List.mem_singleton]
    constructor
    · rintro ⟨inSources, parsed⟩
      exact ⟨.inl inSources, parsed⟩
    · rintro ⟨inSources | rfl, parsed⟩
      · exact ⟨inSources, parsed⟩
      · exact ⟨member, parsed⟩
  | none =>
    rw [(compile_of_unknown found).2]
    cases parsed : nodesOf source with
    | error failure =>
      refine ⟨keeps.distinct, fun other nodes => ?_⟩
      rw [known, List.mem_append, List.mem_singleton]
      constructor
      · rintro ⟨inSources, parsed'⟩
        exact ⟨.inl inSources, parsed'⟩
      · rintro ⟨inSources | rfl, parsed'⟩
        · exact ⟨inSources, parsed'⟩
        · rw [parsed] at parsed'
          cases parsed'
    | ok nodes =>
      refine ⟨Dict.keys_insert_nodup keeps.distinct _ _, fun other nodes' => ?_⟩
      rw [Dict.get?_insert, List.mem_append, List.mem_singleton]
      by_cases same : source = other
      · subst same
        simp [parsed]
      · rw [if_neg same, known]
        simp [Ne.symm same]

/-- The number of texts kept is the number of different templates among the texts. -/
theorem Keeps.size_eq (keeps : evaluator.Keeps sources) :
    evaluator.size = (sources.dedup.filter fun source => (nodesOf source).isOk).length := by
  have keys : (Dict.keys evaluator.parsed).Perm
      (sources.dedup.filter fun source => (nodesOf source).isOk) := by
    rw [List.perm_ext_iff_of_nodup keeps.distinct (List.Nodup.filter _ (List.nodup_dedup _))]
    intro source
    have present : source ∈ Dict.keys evaluator.parsed ↔
        ∃ nodes, evaluator.parsed.get? source = some nodes := by
      rw [← Option.ne_none_iff_exists', ne_eq, Dict.get?_eq_none_iff, not_not]
    rw [present, List.mem_filter, List.mem_dedup]
    constructor
    · rintro ⟨nodes, found⟩
      obtain ⟨inSources, parsed⟩ := (keeps.known source nodes).mp found
      rw [parsed]
      exact ⟨inSources, rfl⟩
    · rintro ⟨inSources, isTemplate⟩
      cases parsed : nodesOf source with
      | error failure =>
        rw [parsed] at isTemplate
        cases isTemplate
      | ok nodes => exact ⟨nodes, (keeps.known source nodes).mpr ⟨inSources, parsed⟩⟩
  rw [← keys.length_eq, Dict.keys, List.length_map, size]

end

/-- At every point an evaluator keeps just the templates evaluated since it last forgot. -/
theorem keeps_behind (uses : List Use) : (behind uses).Keeps (sourcesSince uses) := by
  induction uses using List.reverseRecOn with
  | nil => exact keeps_empty
  | append_singleton front last ih =>
    unfold behind sourcesSince at ih ⊢
    rw [List.foldl_append, List.foldl_append]
    cases last with
    | evaluate surroundings source context => exact ih.evaluate surroundings source context
    | clear => exact keeps_clear (front.foldl use {})

/-- **What an evaluator was used for does not show.** At any point an evaluation has the outcome and
the context that it has on a new evaluator at the same time, provided that it draws no identifier or
draws the same ones; and the evaluator keeps just the templates evaluated since it last forgot, each
once and with its own nodes. -/
theorem behind_uses (uses : List Use) :
    (∀ (surroundings other : Surroundings) (source : String) (context : Context),
      other.now = surroundings.now →
      (drawnBy surroundings source context = 0 ∨ other.identifier = surroundings.identifier) →
        ((behind uses).evaluate other source context).1 =
            (({} : Evaluator).evaluate surroundings source context).1 ∧
          ((behind uses).evaluate other source context).2.1 =
            (({} : Evaluator).evaluate surroundings source context).2.1) ∧
      (∀ source nodes, (behind uses).parsed.get? source = some nodes ↔
        source ∈ sourcesSince uses ∧ nodesOf source = .ok nodes) ∧
      (Dict.keys (behind uses).parsed).Nodup ∧
      (behind uses).size =
        ((sourcesSince uses).dedup.filter fun source => (nodesOf source).isOk).length := by
  have keeps := keeps_behind uses
  refine ⟨fun surroundings other source context clock drawn => ?_, keeps.known, keeps.distinct,
    keeps.size_eq⟩
  have reused := keeps.sound.evaluate_eq other source context
  have fresh := sound_empty.evaluate_eq surroundings source context
  have same : ((behind uses).evaluate other source context).1 =
        (({} : Evaluator).evaluate surroundings source context).1 ∧
      ((behind uses).evaluate other source context).2.1 =
        (({} : Evaluator).evaluate surroundings source context).2.1 := by
    rw [← Prod.mk.injEq, reused, fresh]
    rcases drawn with undrawn | identifiers
    · unfold drawnBy at undrawn
      cases parsed : nodesOf source with
      | error failure => rfl
      | ok nodes =>
        rw [parsed] at undrawn
        exact evaluateNodes_of_undrawn clock undrawn
    · have equal : other = surroundings := by
        cases other
        cases surroundings
        simp_all
      rw [equal]
  exact same

section

/-! ### A text that is evaluated again -/

/-- A template that notes a number in the stash. -/
def noting : String := "#set($ctx.stash.note = 1)$ctx.stash.note"

/-- Uses with other texts, one of them no template, with forgetting, and with the template twice. -/
def usesBefore : List Use :=
  [.evaluate ⟨0, fun _ => ""⟩ "$ctx.stash.note" {}, .evaluate ⟨0, fun _ => ""⟩ "#if(" {}, .clear,
    .evaluate ⟨1, fun _ => "a"⟩ "#if(" {}, .evaluate ⟨1, fun _ => "a"⟩ noting {},
    .evaluate ⟨2, fun _ => "b"⟩ noting {}]

/-- **The template leaves what it leaves on a new evaluator**, and it alone is kept. -/
theorem noted_again :
    drawnBy ⟨3, fun _ => ""⟩ noting {} = 0 ∧
      ((behind usesBefore).evaluate ⟨3, fun _ => "c"⟩ noting {}).1 =
        (({} : Evaluator).evaluate ⟨3, fun _ => ""⟩ noting {}).1 ∧
      ((behind usesBefore).evaluate ⟨3, fun _ => "c"⟩ noting {}).2.1 =
        (({} : Evaluator).evaluate ⟨3, fun _ => ""⟩ noting {}).2.1 ∧
      (behind usesBefore).size = 1 := by
  have undrawn : drawnBy ⟨3, fun _ => ""⟩ noting {} = 0 := by decide +kernel
  have kept : ((sourcesSince usesBefore).dedup.filter
      fun source => (nodesOf source).isOk).length = 1 := by decide +kernel
  obtain ⟨answers, _, _, size⟩ := behind_uses usesBefore
  obtain ⟨outcome, context⟩ :=
    answers ⟨3, fun _ => ""⟩ ⟨3, fun _ => "c"⟩ noting {} rfl (.inl undrawn)
  exact ⟨undrawn, outcome, context, size.trans kept⟩

end

end Evaluator

end FieldResolver.Template

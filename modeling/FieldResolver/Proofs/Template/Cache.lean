/-
**Templates parsed before.**

An evaluator keeps the nodes of every text that it has parsed. What it keeps are the nodes that
parsing the text again would give, whichever texts it was given and in whatever order.

* `Evaluator.Sound`: what is kept is what parsing gives; it holds of an evaluator that keeps
  nothing, and keeping the nodes of one more text (`Sound.keep`) and evaluating (`Sound.evaluate`)
  preserve it;
* `Sound.compile`, `Sound.evaluate_eq`: the nodes of a text, and what evaluating it comes to, do not
  depend on what was parsed before.
-/

import FieldResolver.Proofs.Dict
import FieldResolver.Proofs.Template.Identifiers

namespace FieldResolver.Template

/-- The nodes of a text. -/
def nodesOf (source : String) : Except Failure (List Node) := (({} : Evaluator).compile source).1

/-- How many identifiers the evaluation of a text hands out. -/
def drawnBy (surroundings : Surroundings) (source : String) (context : Context) : Nat :=
  match nodesOf source with
  | .ok nodes => drawn surroundings nodes context
  | .error _ => 0

namespace Evaluator

/-- Whether an evaluator keeps what parsing gives. -/
def Sound (evaluator : Evaluator) : Prop :=
  ∀ source nodes, evaluator.parsed.get? source = some nodes → nodesOf source = .ok nodes

variable {evaluator : Evaluator} {source : String} {nodes : List Node}

/-- An evaluator that keeps nothing. -/
theorem sound_empty : ({} : Evaluator).Sound := fun _ _ kept => nomatch kept

/-- The nodes of one more text are kept. -/
theorem Sound.keep (sound : evaluator.Sound) (parsed : nodesOf source = .ok nodes) :
    Sound { parsed := evaluator.parsed.insert source nodes } := by
  intro text kept found
  rw [Dict.get?_insert] at found
  split at found
  · rename_i same
    cases found
    rwa [← same]
  · exact sound text kept found

/-- The nodes of a text that is not kept. -/
theorem compile_of_unknown (unknown : evaluator.parsed.get? source = none) :
    (evaluator.compile source).1 = nodesOf source ∧
      (evaluator.compile source).2 = match nodesOf source with
        | .ok nodes => { parsed := evaluator.parsed.insert source nodes }
        | .error _ => evaluator := by
  rw [nodesOf, compile, compile, unknown, show ({} : Evaluator).parsed.get? source = none from rfl]
  simp only
  cases parse source.toList <;> exact ⟨rfl, rfl⟩

/-- **What was parsed before does not matter** for the nodes of a text. -/
theorem Sound.compile (sound : evaluator.Sound) (source : String) :
    (evaluator.compile source).1 = nodesOf source ∧ (evaluator.compile source).2.Sound := by
  cases known : evaluator.parsed.get? source with
  | some nodes =>
    rw [Evaluator.compile, known]
    exact ⟨(sound source nodes known).symm, sound⟩
  | none =>
    obtain ⟨found, after⟩ := compile_of_unknown known
    refine ⟨found, ?_⟩
    rw [after]
    cases parsed : nodesOf source with
    | ok nodes => exact sound.keep parsed
    | error failure => exact sound

/-- Evaluating a text changes an evaluator like parsing it. -/
theorem evaluate_evaluator (evaluator : Evaluator) (surroundings : Surroundings) (source : String)
    (context : Context) :
    (evaluator.evaluate surroundings source context).2.2 = (evaluator.compile source).2 := by
  rw [evaluate]
  split
  · rename_i compiled
    rw [compiled]
  · rename_i compiled
    rw [compiled]

/-- Evaluating keeps an evaluator sound. -/
theorem Sound.evaluate (sound : evaluator.Sound) (surroundings : Surroundings) (source : String)
    (context : Context) : (evaluator.evaluate surroundings source context).2.2.Sound := by
  rw [evaluate_evaluator]
  exact (sound.compile source).2

/-- **An evaluation is that of the text's own nodes**, whatever was parsed before. -/
theorem Sound.evaluate_eq (sound : evaluator.Sound) (surroundings : Surroundings) (source : String)
    (context : Context) :
    ((evaluator.evaluate surroundings source context).1,
        (evaluator.evaluate surroundings source context).2.1) =
      match nodesOf source with
      | .ok nodes => evaluateNodes surroundings nodes context
      | .error failure => (.failed failure, context) := by
  rw [← (sound.compile source).1, Evaluator.evaluate]
  cases evaluator.compile source with
  | mk compiled after => cases compiled <;> rfl

end Evaluator

end FieldResolver.Template

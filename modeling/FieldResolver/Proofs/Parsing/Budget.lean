/-
**More budget changes no answer.**

A parser that ends with anything but the lack of budget ends in the same way with more of it,
since its parts do. The budget of `parse` is never short, so the answer of `parse` is the one for
all greater budgets: the recursion that the budget cuts off has come to its end by then.

* `Settled`: an answer that is the lack of budget, or the one with more budget as well;
* `expr_settled`, `block_settled`: one more is enough to see that;
* `block_eq_of_le`: the answer of a template for all budgets from the one of `parse` on;
* `Settles`, `parse_of_settles`: what a parser answers with every budget that is great enough, and
  the answer of `parse` from it.
-/

import FieldResolver.Proofs.Parsing.Places

namespace FieldResolver.Template.Parser

/-- Whether an answer stays with more budget, unless it is the lack of budget. -/
def Settled {α : Type} (less more : Except SyntaxError α) : Prop :=
  more = less ∨ ∃ error, less = .error error ∧ ¬ error.cause.Genuine

section

variable {α β : Type}

theorem Settled.refl (answer : Except SyntaxError α) : Settled answer answer := .inl rfl

theorem Settled.spent {text : List Char} {more : Except SyntaxError α} :
    Settled (fail .budget text) more :=
  .inr ⟨⟨.budget, text.length⟩, rfl, id⟩

theorem Settled.bind {less more : Except SyntaxError α} {next others : α → Except SyntaxError β}
    (first : Settled less more) (second : ∀ value, Settled (next value) (others value)) :
    Settled (less >>= next) (more >>= others) := by
  rcases first with rfl | ⟨error, rfl, spent⟩
  · cases more with
    | ok value => exact second value
    | error error => exact .refl _
  · exact .inr ⟨error, rfl, spent⟩

theorem Settled.trans {less middle more : Except SyntaxError α} (first : Settled less middle)
    (second : Settled middle more) : Settled less more := by
  rcases first with rfl | spent
  · exact second
  · exact .inr spent

end

mutual

theorem expr_settled : (budget level : Nat) → (text : List Char) →
    Settled (expr budget level text) (expr (budget + 1) level text)
  | 0, _, _ => .spent
  | budget + 1, level, text => by
    unfold expr
    split
    · refine .bind (expr_settled budget _ _) ?_
      rintro ⟨left, rest⟩
      exact operands_settled budget level left rest
    · exact unary_settled budget text

theorem operands_settled : (budget level : Nat) → (left : Expr) → (text : List Char) →
    Settled (operands budget level left text) (operands (budget + 1) level left text)
  | 0, _, _, _ => .spent
  | budget + 1, level, left, text => by
    unfold operands
    simp only
    split
    · exact .refl _
    · refine .bind (expr_settled budget _ _) ?_
      rintro ⟨right, rest⟩
      exact operands_settled budget level _ rest

theorem unary_settled : (budget : Nat) → (text : List Char) →
    Settled (unary budget text) (unary (budget + 1) text)
  | 0, _ => .spent
  | budget + 1, text => by
    unfold unary
    split
    · split
      · exact primary_settled budget _
      · exact .bind (unary_settled budget _) fun _ => .refl _
    · exact .bind (unary_settled budget _) fun _ => .refl _
    · split
      · exact .bind (unary_settled budget _) fun _ => .refl _
      · exact primary_settled budget _

theorem primary_settled : (budget : Nat) → (text : List Char) →
    Settled (primary budget text) (primary (budget + 1) text)
  | 0, _ => .spent
  | budget + 1, text => by
    unfold primary
    split
    · exact .refl _
    · split
      · exact .bind (reference?_settled budget _) fun _ => .refl _
      · exact .refl _
      · split
        · split
          · -- only the cause of the inner error is handed on
            rename_i content rest _ _
            rcases block_settled budget .template content.length [] [] content with
              same | ⟨error, failed, spent⟩
            · rw [same]
              exact .refl _
            · rw [failed]
              exact .inr ⟨_, rfl, spent⟩
          · exact .refl _
        · exact .refl _
      · exact listOrRange_settled budget _
      · simp only
        split
        · exact .refl _
        · exact .bind (entries_settled budget _ _) fun _ => .refl _
      · exact .bind (expr_settled budget _ _) fun _ => .refl _
      · exact .refl _

theorem listOrRange_settled : (budget : Nat) → (text : List Char) →
    Settled (listOrRange budget text) (listOrRange (budget + 1) text)
  | 0, _ => .spent
  | budget + 1, text => by
    unfold listOrRange
    split
    · exact .refl _
    · refine .bind (expr_settled budget _ _) ?_
      rintro ⟨first, rest⟩
      simp only
      split
      · exact .bind (expr_settled budget _ _) fun _ => .refl _
      · exact .bind (items_settled budget _ _) fun _ => .refl _

theorem items_settled : (budget : Nat) → (read : List Expr) → (text : List Char) →
    Settled (items budget read text) (items (budget + 1) read text)
  | 0, _, _ => .spent
  | budget + 1, read, text => by
    unfold items
    split
    · refine .bind (expr_settled budget _ _) ?_
      rintro ⟨item, rest⟩
      exact items_settled budget _ rest
    · exact .refl _
    · exact .refl _

theorem entries_settled : (budget : Nat) → (read : List Entry) → (text : List Char) →
    Settled (entries budget read text) (entries (budget + 1) read text)
  | 0, _, _ => .spent
  | budget + 1, read, text => by
    unfold entries
    refine .bind (expr_settled budget _ _) ?_
    rintro ⟨key, rest⟩
    refine .bind (.refl _) fun behind => .bind (expr_settled budget _ _) ?_
    rintro ⟨value, rest⟩
    simp only
    split
    · exact entries_settled budget _ _
    · exact .refl _
    · exact .refl _

theorem arguments_settled : (budget : Nat) → (text : List Char) →
    Settled (arguments budget text) (arguments (budget + 1) text)
  | 0, _ => .spent
  | budget + 1, text => by
    unfold arguments
    split
    · exact .refl _
    · exact moreArguments_settled budget _ _

theorem moreArguments_settled : (budget : Nat) → (read : List Expr) → (text : List Char) →
    Settled (moreArguments budget read text) (moreArguments (budget + 1) read text)
  | 0, _, _ => .spent
  | budget + 1, read, text => by
    unfold moreArguments
    refine .bind (expr_settled budget _ _) ?_
    rintro ⟨argument, rest⟩
    simp only
    split
    · exact moreArguments_settled budget _ _
    · exact .refl _
    · exact .refl _

theorem reference?_settled : (budget : Nat) → (text : List Char) →
    Settled (reference? budget text) (reference? (budget + 1) text)
  | 0, _ => .spent
  | budget + 1, text => by
    rw [reference?_succ, reference?_succ]
    split
    · split
      · exact .bind (segments_settled budget _ _) fun _ => .refl _
      · exact .refl _
    · split
      · exact .bind (segments_settled budget _ _) fun _ => .refl _
      · exact .refl _

theorem segments_settled : (budget : Nat) → (read : List Segment) → (text : List Char) →
    Settled (segments budget read text) (segments (budget + 1) read text)
  | 0, _, _ => .spent
  | budget + 1, read, text => by
    unfold segments
    split
    · split
      · simp only
        split
        · refine .bind (arguments_settled budget _) ?_
          rintro ⟨given, rest⟩
          exact segments_settled budget _ _
        · exact segments_settled budget _ _
      · exact .refl _
    · refine .bind (expr_settled budget _ _) ?_
      rintro ⟨key, rest⟩
      exact .bind (.refl _) fun _ => segments_settled budget _ _
    · exact .refl _

theorem condition_settled : (budget : Nat) → (text : List Char) →
    Settled (condition budget text) (condition (budget + 1) text)
  | 0, _ => .spent
  | budget + 1, text => by
    unfold condition
    exact .bind (.refl _) fun _ => .bind (expr_settled budget _ _) fun _ => .refl _

theorem assignment_settled : (budget : Nat) → (text : List Char) →
    Settled (assignment budget text) (assignment (budget + 1) text)
  | 0, _ => .spent
  | budget + 1, text => by
    unfold assignment
    refine .bind (.refl _) fun _ => .bind (reference?_settled budget _) fun found => ?_
    split
    · exact .refl _
    · split
      · exact .refl _
      · exact .bind (.refl _) fun _ => .bind (expr_settled budget _ _) fun _ => .refl _

theorem returned_settled : (budget : Nat) → (text : List Char) →
    Settled (returned budget text) (returned (budget + 1) text)
  | 0, _ => .spent
  | budget + 1, text => by
    unfold returned
    split
    · split
      · exact .refl _
      · exact .bind (expr_settled budget _ _) fun _ => .refl _
    · exact .refl _

theorem loop_settled : (budget : Nat) → (text : List Char) →
    Settled (loop budget text) (loop (budget + 1) text)
  | 0, _ => .spent
  | budget + 1, text => by
    unfold loop
    refine .bind (.refl _) fun _ => .bind (reference?_settled budget _) fun found => ?_
    split
    · simp only
      split
      · exact .refl _
      · refine .bind (expr_settled budget _ _) ?_
        rintro ⟨list, rest⟩
        exact .bind (.refl _) fun _ => .bind (block_settled budget _ _ _ _ _) fun _ => .refl _
    · exact .refl _
    · exact .refl _

theorem branches_settled : (budget : Nat) → (read : List Branch) → (text : List Char) →
    Settled (branches budget read text) (branches (budget + 1) read text)
  | 0, _, _ => .spent
  | budget + 1, read, text => by
    unfold branches
    refine .bind (condition_settled budget _) ?_
    rintro ⟨test, rest⟩
    refine .bind (block_settled budget _ _ _ _ _) ?_
    rintro ⟨⟨body, ending⟩, behind⟩
    simp only
    split
    · exact branches_settled budget _ _
    · exact .bind (block_settled budget _ _ _ _ _) fun _ => .refl _
    · exact .refl _

theorem block_settled : (budget : Nat) → (scope : Scope) → (start : Nat) → (nodes : List Node) →
    (plain text : List Char) →
    Settled (block budget scope start nodes plain text)
      (block (budget + 1) scope start nodes plain text)
  | 0, _, _, _, _, _ => .spent
  | budget + 1, scope, start, nodes, plain, text => by
    unfold block
    split
    · exact .refl _
    · exact block_settled budget ..
    · exact block_settled budget ..
    · exact block_settled budget ..
    · split
      · exact block_settled budget ..
      · exact .refl _
    · split
      · exact block_settled budget ..
      · exact .refl _
    · split
      · exact block_settled budget ..
      · simp only
        split
        · refine .bind (assignment_settled budget _) ?_
          rintro ⟨node, rest⟩
          exact block_settled budget ..
        · refine .bind (branches_settled budget _ _) ?_
          rintro ⟨node, rest⟩
          exact block_settled budget ..
        · refine .bind (loop_settled budget _) ?_
          rintro ⟨node, rest⟩
          exact block_settled budget ..
        · exact block_settled budget ..
        · exact block_settled budget ..
        · refine .bind (returned_settled budget _) ?_
          rintro ⟨node, rest⟩
          exact block_settled budget ..
        · refine .bind (.refl _) fun _ => .bind (arguments_settled budget _) ?_
          rintro ⟨given, rest⟩
          exact block_settled budget ..
        · exact .refl _
    · refine .bind (reference?_settled budget _) fun found => ?_
      split
      · exact block_settled budget ..
      · exact block_settled budget ..
    · exact block_settled budget ..

end

/-! ### Great budgets -/

/-- The answers for a budget and for any greater one. -/
theorem block_settled_of_le {less more : Nat} (room : less ≤ more) (scope : Scope) (start : Nat)
    (nodes : List Node) (plain text : List Char) :
    Settled (block less scope start nodes plain text)
      (block more scope start nodes plain text) := by
  induction room with
  | refl => exact .refl _
  | step _ ih => exact ih.trans (block_settled _ scope start nodes plain text)

/-- **From the budget of `parse` on, every budget gives the same answer.** -/
theorem block_eq_of_le (text : List Char) {budget : Nat} (room : budgetFor text.length ≤ budget) :
    block budget .template text.length [] [] text =
      block (budgetFor text.length) .template text.length [] [] text := by
  rcases block_settled_of_le room .template text.length [] [] text with
    same | ⟨error, failed, spent⟩
  · exact same
  · have sited := block_sited (budgetFor text.length) .template [] [] (List.suffix_rfl (l := text))
    exact absurd ((sited error failed).2 (by unfold budgetFor; omega)) spent

/-- Whether a parser has an answer with every budget that is great enough. -/
def Settles {α : Type} (answers : Nat → Except SyntaxError α) (answer : Except SyntaxError α) :
    Prop :=
  ∃ enough, ∀ budget, enough ≤ budget → answers budget = answer

section

variable {α β : Type}

theorem Settles.of_eq {answers : Nat → Except SyntaxError α} {answer : Except SyntaxError α}
    (same : ∀ budget, answers (budget + 1) = answer) : Settles answers answer :=
  ⟨1, fun budget room => by
    obtain ⟨less, rfl⟩ : ∃ less, budget = less + 1 := ⟨budget - 1, by omega⟩
    exact same less⟩

/-- A parser that hands on to others. -/
theorem Settles.step {answers others : Nat → Except SyntaxError α} {answer : Except SyntaxError α}
    (same : ∀ budget, answers (budget + 1) = others budget) (settles : Settles others answer) :
    Settles answers answer := by
  obtain ⟨enough, all⟩ := settles
  refine ⟨enough + 1, fun budget room => ?_⟩
  obtain ⟨less, rfl⟩ : ∃ less, budget = less + 1 := ⟨budget - 1, by omega⟩
  rw [same]
  exact all less (by omega)

/-- A parser that does the same as another one. -/
theorem Settles.congr {answers others : Nat → Except SyntaxError α} {answer : Except SyntaxError α}
    (same : ∀ budget, answers (budget + 1) = others (budget + 1))
    (settles : Settles others answer) : Settles answers answer := by
  obtain ⟨enough, all⟩ := settles
  refine ⟨enough + 1, fun budget room => ?_⟩
  obtain ⟨less, rfl⟩ : ∃ less, budget = less + 1 := ⟨budget - 1, by omega⟩
  rw [same]
  exact all _ (by omega)

/-- A parser that goes on with what another one reads. -/
theorem Settles.bind {first : Nat → Except SyntaxError α}
    (next : Nat → α → Except SyntaxError β) {value : α} {answer : Except SyntaxError β}
    (here : Settles first (.ok value)) (below : Settles (fun budget => next budget value) answer) :
    Settles (fun budget => first budget >>= next budget) answer := by
  obtain ⟨enough, all⟩ := here
  obtain ⟨more, others⟩ := below
  refine ⟨max enough more, fun budget room => ?_⟩
  simp only [all budget (by omega)]
  exact others budget (by omega)

end

/-- What a template comes to with great budgets is what `parse` says of it. -/
theorem parse_of_settles {text rest : List Char} {nodes : List Node} {ending : Ending}
    (settles : Settles (fun budget => block budget .template text.length [] [] text)
      (.ok ((nodes, ending), rest))) : parse text = .ok nodes := by
  obtain ⟨enough, all⟩ := settles
  have answer : block (max enough (budgetFor text.length)) .template text.length [] [] text = _ :=
    all _ (by omega)
  rw [block_eq_of_le text (by omega)] at answer
  unfold parse
  rw [answer]
  rfl

end FieldResolver.Template.Parser

/-
**What a written expression is read as, level by level.**

The parser of a level reads an operand of the next level and goes on with the operators of its own,
so it comes to an expression with the text behind that expression, and what it answers depends on
what stands there. Three readings of a text are enough for that: as an operand, which stands for
itself; as an expression that no operator of its level follows, which the parser stops at; and as
one that such an operator may follow, which the parser goes on from.

* `Ends`, `Loose`: what may follow a token, and a text that starts with no operator of a level;
* `Operand`, `Stands`, `Leads`: the three readings;
* `Operand.leads`, `Leads.of_lt`: from operands to the levels, and from a level to looser ones;
* `Stands.grouped`, `Leads.binary`: parentheses, and an operator with its operands.
-/

import FieldResolver.Proofs.Parsing.Budget
import FieldResolver.Proofs.Parsing.Writing
import Mathlib.Tactic.FinCases

namespace FieldResolver.Template.Parser

/-! ### What follows -/

/-- Whether a text lets the token in front of it end. -/
def Ends (rest : List Char) : Prop := ∀ c ∈ rest.head?, c = ' ' ∨ c = ')'

theorem ends_space (rest : List Char) : Ends (' ' :: rest) := by
  rintro c ⟨⟩
  exact .inl rfl

/-- Whether a text starts with no operator of a level or of a tighter one. -/
def Loose (level : Nat) (rest : List Char) : Prop :=
  ∀ tighter, level ≤ tighter → operator? tighter (skipBlanks rest) = none

theorem Loose.mono {level tighter : Nat} {rest : List Char} (loose : Loose level rest)
    (le : level ≤ tighter) : Loose tighter rest :=
  fun other below => loose other (le.trans below)

theorem skipBlanks_space (text : List Char) : skipBlanks (' ' :: text) = skipBlanks text := rfl

/-- The space in front of an expression is dropped, and nothing else is. -/
theorem skipBlanks_opening {text : List Char} (opening : Opening text) (rest : List Char) :
    skipBlanks (' ' :: (text ++ rest)) = text ++ rest := by
  obtain ⟨c, more, rfl, opens⟩ := opening
  exact skipBlanks_visible opens.1 _

/-- Whether a character closes a part of an expression or separates two of them. -/
def Closing (c : Char) : Prop := c = ')' ∨ c = ']' ∨ c = '\x7d' ∨ c = ',' ∨ c = ':' ∨ c = '.'

instance (c : Char) : Decidable (Closing c) :=
  inferInstanceAs (Decidable (_ ∨ _ ∨ _ ∨ _ ∨ _ ∨ _))

theorem Closing.visible {c : Char} (closing : Closing c) : Visible c := by
  rcases closing with rfl | rfl | rfl | rfl | rfl | rfl <;> rfl

/-- No operator starts like what closes or separates. -/
theorem loose_of_closing {c : Char} (closing : Closing c) (level : Nat) (rest : List Char) :
    Loose level (' ' :: c :: rest) := by
  intro tighter _
  rcases closing with rfl | rfl | rfl | rfl | rfl | rfl
  all_goals
    match tighter with
    | 0 | 1 | 2 | 3 | 4 | 5 | _ + 6 => rfl

/-- An operator is seen at its own level and at no other one. -/
theorem operator?_spelled {own : Nat} {entry : Spelling × BinaryOp} (known : entry ∈ operators own)
    (level : Nat) (rest : List Char) :
    operator? level (skipBlanks (' ' :: (entry.1.text ++ ' ' :: rest))) =
      if level = own then some (entry.2, ' ' :: rest) else none := by
  -- the symbols of one level are no beginnings of others, and a word ends at the space
  match own with
  | 0 | 1 | 2 | 3 | 4 | 5 =>
    fin_cases known
    all_goals
      match level with
      | 0 | 1 | 2 | 3 | 4 | 5 | _ + 6 => rfl
  | _ + 6 => exact absurd known List.not_mem_nil

theorem operands_loose {level : Nat} {rest : List Char} (loose : Loose level rest) (value : Expr) :
    Settles (fun budget => operands budget level value rest) (.ok (value, skipBlanks rest)) := by
  refine .of_eq fun budget => ?_
  rw [operands]
  simp only [loose level (Nat.le_refl _)]

/-! ### The three readings -/

/-- Whether a text is read as an operand, with any text behind it. -/
def Operand (text : List Char) (value : Expr) : Prop :=
  ∀ rest, Ends rest → Settles (fun budget => unary budget (text ++ rest)) (.ok (value, rest))

/-- Whether a text is read as an expression of a level if no operator of the level follows. -/
def Stands (level : Nat) (text : List Char) (value : Expr) : Prop :=
  ∀ rest, Ends rest → Loose level rest →
    ∃ left, skipBlanks left = skipBlanks rest ∧
      Settles (fun budget => expr budget level (text ++ rest)) (.ok (value, left))

/-- Whether the parser of a level comes from a text to the operators of the level behind it, with
the expression that the text writes on their left. -/
def Leads (level : Nat) (text : List Char) (value : Expr) : Prop :=
  ∀ rest, Ends rest → Loose (level + 1) rest → ∀ answer,
    Settles (fun budget => operands budget level value rest) answer →
      Settles (fun budget => expr budget level (text ++ rest)) answer

section

variable {level : Nat} {text : List Char} {value : Expr}

theorem Operand.stands (operand : Operand text value) : Stands levels text value := by
  intro rest ends _
  refine ⟨rest, rfl, (operand rest ends).step fun budget => ?_⟩
  rw [expr, if_neg (Nat.lt_irrefl _)]

theorem Leads.stands (leads : Leads level text value) : Stands level text value := by
  intro rest ends loose
  exact ⟨skipBlanks rest, skipBlanks_skipBlanks rest,
    leads rest ends (loose.mono (Nat.le_succ _)) _ (operands_loose loose value)⟩

/-- The operators of a level follow an expression of the next level. -/
theorem Stands.leads (bound : level < levels) (stands : Stands (level + 1) text value) :
    Leads level text value := by
  intro rest ends loose answer behind
  obtain ⟨left, same, read⟩ := stands rest ends loose
  -- a level may have dropped the white space already, which its operators drop anyway
  have others : Settles (fun budget => operands budget level value left) answer := by
    refine behind.congr fun budget => ?_
    rw [operands, operands, same]
  refine .step (fun budget => ?_)
    (.bind (fun budget found => operands budget level found.1 found.2) read others)
  rw [expr, if_pos bound]

/-- An expression of a level is one of every looser level. -/
theorem Stands.of_le {tighter : Nat} (stands : Stands tighter text value) (bound : tighter ≤ levels)
    (le : level ≤ tighter) : Stands level text value := by
  induction le with
  | refl => exact stands
  | step _ ih =>
    exact ih (stands.leads (by omega)).stands (by omega)

/-- An operand may stand at the left of an operator of any level. -/
theorem Operand.leads (operand : Operand text value) (bound : level < levels) :
    Leads level text value :=
  (operand.stands.of_le (Nat.le_refl _) bound).leads bound

/-- An expression of a level may stand at the left of an operator of any looser one. -/
theorem Leads.of_lt {tighter : Nat} (leads : Leads tighter text value) (bound : tighter < levels)
    (lt : level < tighter) : Leads level text value :=
  (leads.stands.of_le (by omega) lt).leads (by omega)

end

/-! ### Parentheses and operators -/

/-- What starts no negation is read as an operand without one. -/
theorem unary_primary {c : Char} {rest : List Char} (visible : Visible c)
    (noBang : c ≠ '!') (noMinus : c ≠ '-') (noWord : eatWord? ['n', 'o', 't'] (c :: rest) = none)
    (budget : Nat) : unary (budget + 1) (c :: rest) = primary budget (c :: rest) := by
  rw [unary]
  simp only [skipBlanks_visible visible]
  split
  · exact absurd (List.cons.inj ‹_›).1 noBang
  · exact absurd (List.cons.inj ‹_›).1 noMinus
  · simp only [noWord]

/-- An expression in parentheses is an operand. -/
theorem Stands.grouped {text : List Char} {value : Expr} (stands : Stands 0 text value)
    (opening : Opening text) : Operand ('(' :: ' ' :: (text ++ [' ', ')'])) value := by
  intro rest _
  obtain ⟨left, blank, read⟩ := stands (' ' :: ')' :: rest) (ends_space _)
    (loose_of_closing (by decide) 0 rest)
  have split : '(' :: ' ' :: (text ++ [' ', ')']) ++ rest =
      '(' :: ' ' :: (text ++ ' ' :: ')' :: rest) := by simp
  rw [split]
  refine .step (unary_primary rfl (by decide) (by decide) rfl) ?_
  refine .step (fun budget => ?_) (.bind (fun _ found =>
    expect ')' (skipBlanks found.2) >>= fun rest => .ok (found.1, rest)) read (.of_eq fun _ => ?_))
  · rw [primary]
    simp only [skipBlanks_opening opening]
  · rw [blank]
    rfl

/-- **An operator with its operands,** the right one of the next tighter level. -/
theorem Leads.binary {op : BinaryOp} {spelling : Spelling} {left right : List Char}
    {first second : Expr} (known : (spelling, op) ∈ operators op.level)
    (leads : Leads op.level left first) (stands : Stands (op.level + 1) right second)
    (opening : Opening right) :
    Leads op.level (left ++ ' ' :: (spelling.text ++ ' ' :: right)) (.binary op first second) := by
  intro rest ends loose answer behind
  obtain ⟨rest', blank, read⟩ := stands rest ends loose
  have seen := operator?_spelled known
  have split : left ++ ' ' :: (spelling.text ++ ' ' :: right) ++ rest =
      left ++ ' ' :: (spelling.text ++ ' ' :: (right ++ rest)) := by simp
  rw [split]
  -- the operator behind the left operand is none of the tighter levels, so they all end there
  refine leads _ (ends_space _) (fun tighter below => ?_) answer ?_
  · rw [seen, if_neg (by omega)]
  · refine .step (fun budget => ?_) (.bind (fun budget found =>
      operands budget op.level (.binary op first found.1) found.2) read
      (behind.congr fun budget => ?_))
    · rw [operands]
      simp only [seen, if_true, skipBlanks_opening opening]
    · rw [operands, operands, blank]

end FieldResolver.Template.Parser

/-
**Conditions are read as they are written.**

A condition over placeholders is written with parentheses only where `NOT`, `AND` and `OR`, which
bind less and less and join from the left, would be read in another way without them. Reading it
gives the condition back with every placeholder replaced by what it stands for, or the fault of the
first placeholder that stands for nothing.

* `Placeholder`, `Placed`: placeholders, and operands given by them;
* `Condition.write`, `Condition.traverse`: the written form, and a condition with every name and
  operand replaced;
* `Condition.Reads`: what the parser of each level makes of the written form;
* `Condition.reads`: the induction over conditions;
* `condition_of_spells`: reading a text of a condition.
-/

import FieldResolver.Table.Expression
import FieldResolver.Proofs.Expression.Tokens

namespace FieldResolver.Table

/-! ### Placeholders -/

/-- The word of a placeholder, behind its first character. -/
structure Placeholder where
  word : List Char
  isWord : IsWord word

/-- The placeholder of a name. -/
def Placeholder.name (placeholder : Placeholder) : String := String.ofList ('#' :: placeholder.word)

/-- The placeholder of a value. -/
def Placeholder.value (placeholder : Placeholder) : String :=
  String.ofList (':' :: placeholder.word)

/-- An operand that is given by a placeholder. -/
inductive Placed where
  | name (placeholder : Placeholder)
  | value (placeholder : Placeholder)

/-- The token of an operand. -/
def Placed.token : Placed → Token
  | .name placeholder => .name placeholder.name
  | .value placeholder => .value placeholder.value

theorem Placeholder.name_formed (placeholder : Placeholder) :
    (Token.name placeholder.name).Formed :=
  ⟨_, placeholder.isWord, rfl⟩

theorem Placeholder.value_formed (placeholder : Placeholder) :
    (Token.value placeholder.value).Formed :=
  ⟨_, placeholder.isWord, rfl⟩

theorem Placed.formed (operand : Placed) : operand.token.Formed := by
  cases operand with
  | name placeholder => exact placeholder.name_formed
  | value placeholder => exact placeholder.value_formed

/-! ### The written form -/

/-- The sign of a comparison. -/
def Relation.sign : Relation → Sign
  | .eq => .eq
  | .ne => .ne
  | .lt => .lt
  | .le => .le
  | .gt => .gt
  | .ge => .ge

/-- Tokens in parentheses, if they need them. -/
def inParens (needed : Bool) (tokens : List Token) : List Token :=
  if needed then .openParen :: (tokens ++ [.closeParen]) else tokens

/-- A call of a function with tokens for its arguments. -/
def called (function : String) (arguments : List Token) : List Token :=
  .word function :: .openParen :: (arguments ++ [.closeParen])

/-- How a condition is written where one is asked for that binds at least as close as a level: 0
stands for `OR`, 1 for `AND` and 2 for `NOT`. -/
def Condition.write (level : Nat) : Condition Placeholder Placed → List Token
  | .or left right =>
    inParens (0 < level) (left.write 0 ++ .word "OR" :: right.write 1)
  | .and left right =>
    inParens (1 < level) (left.write 1 ++ .word "AND" :: right.write 2)
  | .not inner => .word "NOT" :: inner.write 2
  | .compare left relation right => [left.token, .sign relation.sign, right.token]
  | .between value low high =>
    [value.token, .word "BETWEEN", low.token, .word "AND", high.token]
  | .present name => called "attribute_exists" [.name name.name]
  | .absent name => called "attribute_not_exists" [.name name.name]
  | .beginsWith target start => called "begins_with" [target.token, .comma, start.token]
  | .contains target member => called "contains" [target.token, .comma, member.token]

/-- A condition with every name and every operand replaced, from left to right. -/
def Condition.traverse {ε ν ν' ο ο' : Type} (name : ν → Except ε ν') (operand : ο → Except ε ο') :
    Condition ν ο → Except ε (Condition ν' ο')
  | .and left right => do
    return .and (← left.traverse name operand) (← right.traverse name operand)
  | .or left right => do
    return .or (← left.traverse name operand) (← right.traverse name operand)
  | .not inner => do return .not (← inner.traverse name operand)
  | .compare left relation right => do return .compare (← operand left) relation (← operand right)
  | .between value low high => do
    return .between (← operand value) (← operand low) (← operand high)
  | .present found => do return .present (← name found)
  | .absent missing => do return .absent (← name missing)
  | .beginsWith target start => do return .beginsWith (← operand target) (← operand start)
  | .contains target member => do return .contains (← operand target) (← operand member)

section

variable {needed : Bool} {tokens : List Token} {function : String}

theorem formed_inParens (formed : AllFormed tokens) : AllFormed (inParens needed tokens) := by
  unfold inParens
  split
  · exact .cons trivial (formed.append (.cons trivial .nil))
  · exact formed

theorem formed_called (word : (Token.word function).Formed) (formed : AllFormed tokens) :
    AllFormed (called function tokens) :=
  .cons word (.cons trivial (formed.append (.cons trivial .nil)))

end

/-- **A condition is written in tokens that a text can have.** -/
theorem Condition.formed_write (condition : Condition Placeholder Placed) (level : Nat) :
    AllFormed (condition.write level) := by
  induction condition generalizing level with
  | and left right first second | or left right first second =>
    exact formed_inParens
      ((first _).append (.cons (formed_word (by decide) (by decide)) (second _)))
  | not inner formed => exact .cons (formed_word (by decide) (by decide)) (formed _)
  | compare left relation right =>
    exact .cons left.formed (.cons trivial (.cons right.formed .nil))
  | between value low high =>
    exact .cons value.formed (.cons (formed_word (by decide) (by decide)) (.cons low.formed
      (.cons (formed_word (by decide) (by decide)) (.cons high.formed .nil))))
  | present name | absent name =>
    exact formed_called (formed_word (by decide) (by decide)) (.cons name.name_formed .nil)
  | beginsWith first second | contains first second =>
    exact formed_called (formed_word (by decide) (by decide))
      (.cons first.formed (.cons trivial (.cons second.formed .nil)))

/-! ### What placeholders stand for -/

namespace Expression

section

variable (expression : Expression)

/-- The name that a placeholder stands for. -/
def nameOf (placeholder : Placeholder) : Except ExpressionError String :=
  match expression.names.get? placeholder.name with
  | some name => .ok name
  | none => .error (.undefinedName placeholder.name)

/-- The value that a placeholder stands for. -/
def valueOf (placeholder : Placeholder) : Except ExpressionError Json :=
  match expression.values.get? placeholder.value with
  | some value => .ok value
  | none => .error (.undefinedValue placeholder.value)

/-- The operand that a placeholder stands for. -/
def operandOf : Placed → Except ExpressionError Operand
  | .name placeholder => (expression.nameOf placeholder).map .attribute
  | .value placeholder => (expression.valueOf placeholder).map .value

/-- The condition that one over placeholders stands for. -/
def conditionOf (condition : Condition Placeholder Placed) :
    Except ExpressionError (Condition String Operand) :=
  condition.traverse expression.nameOf expression.operandOf

end

section

variable {expression : Expression} (rest : List Token)

theorem attributeName_placeholder (placeholder : Placeholder) :
    expression.attributeName (.name placeholder.name :: rest) =
      (expression.nameOf placeholder).map (·, rest) := by
  rw [attributeName, nameOf]
  cases expression.names.get? placeholder.name <;> rfl

theorem value_placeholder (placeholder : Placeholder) :
    expression.value (.value placeholder.value :: rest) =
      (expression.valueOf placeholder).map (·, rest) := by
  rw [value, valueOf]
  cases expression.values.get? placeholder.value <;> rfl

theorem operand_placed (operand : Placed) :
    expression.operand (operand.token :: rest) = (expression.operandOf operand).map (·, rest) := by
  cases operand with
  | name placeholder =>
    show (expression.attributeName (.name placeholder.name :: rest)).map _ =
      ((expression.nameOf placeholder).map _).map _
    rw [attributeName_placeholder]
    cases expression.nameOf placeholder <;> rfl
  | value placeholder =>
    show (expression.value (.value placeholder.value :: rest)).map _ =
      ((expression.valueOf placeholder).map _).map _
    rw [value_placeholder]
    cases expression.valueOf placeholder <;> rfl

theorem twoOperands_placed (first second : Placed) :
    expression.twoOperands (first.token :: .comma :: second.token :: rest) = (do
      let first ← expression.operandOf first
      return ((first, ← expression.operandOf second), rest)) := by
  rw [twoOperands, operand_placed]
  cases expression.operandOf first with
  | error cause => rfl
  | ok first =>
    show (expression.operand (second.token :: rest) >>= _) = _
    rw [operand_placed]
    cases expression.operandOf second <;> rfl

end

end Expression

/-! ### Comparisons and tests -/

namespace Expression

section

variable {expression : Expression} (rest : List Token) (budget : Nat)

theorem primary_placed (operand : Placed) :
    expression.primary (budget + 1) (operand.token :: rest) =
      expression.comparison (operand.token :: rest) := by
  cases operand <;> rfl

theorem primary_called (function : String) (arguments : List Token) :
    expression.primary (budget + 1) (called function arguments ++ rest) =
      expression.test function (arguments ++ .closeParen :: rest) := by
  rw [called, List.cons_append, List.cons_append, List.append_assoc, List.singleton_append]
  rfl

theorem relation?_sign (relation : Relation) : relation? (.sign relation.sign) = some relation := by
  cases relation <;> rfl

theorem comparison_compare (left : Placed) (relation : Relation) (right : Placed) :
    expression.comparison (left.token :: .sign relation.sign :: right.token :: rest) =
      (expression.conditionOf (.compare left relation right)).map (·, rest) := by
  rw [comparison, operand_placed, conditionOf, Condition.traverse]
  cases expression.operandOf left with
  | error cause => rfl
  | ok left =>
    dsimp only [bind, Except.bind, Except.map, afterKeyword?, List.head?_cons]
    rw [Option.bind_some, relation?_sign]
    show (expression.operand (right.token :: rest) >>= _) = _
    rw [operand_placed]
    cases expression.operandOf right <;> rfl

theorem comparison_between (operand low high : Placed) :
    expression.comparison (operand.token :: .word "BETWEEN" :: low.token :: .word "AND" ::
        high.token :: rest) =
      (expression.conditionOf (.between operand low high)).map (·, rest) := by
  rw [comparison, operand_placed, conditionOf, Condition.traverse]
  cases expression.operandOf operand with
  | error cause => rfl
  | ok operand =>
    show (expression.operand (low.token :: _) >>= _) = _
    rw [operand_placed]
    cases expression.operandOf low with
    | error cause => rfl
    | ok low =>
      show (expression.operand (high.token :: rest) >>= _) = _
      rw [operand_placed]
      cases expression.operandOf high <;> rfl

theorem test_present (name : Placeholder) :
    expression.test "attribute_exists" (.name name.name :: .closeParen :: rest) =
      (expression.conditionOf (.present name)).map (·, rest) := by
  rw [test, conditionOf, Condition.traverse]
  dsimp only
  rw [attributeName_placeholder]
  cases expression.nameOf name <;> rfl

theorem test_absent (name : Placeholder) :
    expression.test "attribute_not_exists" (.name name.name :: .closeParen :: rest) =
      (expression.conditionOf (.absent name)).map (·, rest) := by
  rw [test, conditionOf, Condition.traverse]
  dsimp only
  rw [attributeName_placeholder]
  cases expression.nameOf name <;> rfl

theorem test_beginsWith (target start : Placed) :
    expression.test "begins_with"
        (target.token :: .comma :: start.token :: .closeParen :: rest) =
      (expression.conditionOf (.beginsWith target start)).map (·, rest) := by
  rw [test, conditionOf, Condition.traverse]
  dsimp only
  rw [twoOperands_placed]
  cases expression.operandOf target with
  | error cause => rfl
  | ok target => cases expression.operandOf start <;> rfl

theorem test_contains (target member : Placed) :
    expression.test "contains"
        (target.token :: .comma :: member.token :: .closeParen :: rest) =
      (expression.conditionOf (.contains target member)).map (·, rest) := by
  rw [test, conditionOf, Condition.traverse]
  dsimp only
  rw [twoOperands_placed]
  cases expression.operandOf target with
  | error cause => rfl
  | ok target => cases expression.operandOf member <;> rfl

end

end Expression

/-! ### The levels

What the parsers of the three levels make of tokens that stand for a condition. The budgets allow
six steps for each token, which is enough for the parsers that come to parentheses from the level
of negations. -/

section

variable (expression : Expression) (tokens : List Token)
  (reading : Except ExpressionError (Condition String Operand))

/-- Whether tokens are read as a negation, which ends by itself. -/
def Negated : Prop :=
  ∀ budget, 6 * tokens.length ≤ budget → ∀ rest,
    expression.negation budget (tokens ++ rest) = reading.map (·, rest)

/-- Whether the parser of conjunctions comes from tokens to what `AND` joins to them. -/
def Conjoined : Prop :=
  ∀ budget, 6 * tokens.length + 1 ≤ budget → ∃ left, budget ≤ left + 6 * tokens.length ∧
    ∀ rest, expression.conjunction budget (tokens ++ rest) =
      reading >>= fun found => expression.conjunctionRest left found rest

/-- Whether the parser of disjunctions comes from tokens to what `OR` joins to them, if no `AND`
follows. -/
def Disjoined : Prop :=
  ∀ budget, 6 * tokens.length + 2 ≤ budget → ∃ left, budget ≤ left + 6 * tokens.length ∧
    ∀ rest, Expression.afterKeyword? "AND" rest = none →
      expression.disjunction budget (tokens ++ rest) =
        reading >>= fun found => expression.disjunctionRest left found rest

end

section

variable {expression : Expression} {tokens others rest : List Token}
  {reading reading' : Except ExpressionError (Condition String Operand)}

theorem Negated.conjoined (negated : Negated expression tokens reading) (some : 0 < tokens.length) :
    Conjoined expression tokens reading := by
  intro budget enough
  obtain ⟨budget, rfl⟩ : ∃ less, budget = less + 1 := ⟨budget - 1, by omega⟩
  refine ⟨budget, by omega, fun rest => ?_⟩
  rw [Expression.conjunction, negated budget (by omega) rest]
  cases reading <;> rfl

/-- `AND` with a conjunction at its left and a negation at its right. -/
theorem Conjoined.and (left : Conjoined expression tokens reading)
    (right : Negated expression others reading') :
    Conjoined expression (tokens ++ .word "AND" :: others)
      (do return .and (← reading) (← reading')) := by
  intro budget enough
  rw [List.length_append, List.length_cons] at enough ⊢
  obtain ⟨next, bound, read⟩ := left budget (by omega)
  obtain ⟨next, rfl⟩ : ∃ less, next = less + 1 := ⟨next - 1, by omega⟩
  refine ⟨next, by omega, fun rest => ?_⟩
  rw [List.append_assoc, List.cons_append, read]
  cases reading with
  | error cause => rfl
  | ok first =>
    show expression.conjunctionRest (next + 1) first (.word "AND" :: (others ++ rest)) = _
    rw [Expression.conjunctionRest]
    show (expression.negation next (others ++ rest) >>= _) = _
    rw [right next (by omega) rest]
    cases reading' <;> rfl

/-- Where no `AND` follows, the parser of conjunctions stops. -/
theorem Conjoined.stops (conjoined : Conjoined expression tokens reading) {budget : Nat}
    (enough : 6 * tokens.length + 1 ≤ budget)
    (stop : Expression.afterKeyword? "AND" rest = none) :
    expression.conjunction budget (tokens ++ rest) = reading.map (·, rest) := by
  obtain ⟨left, bound, read⟩ := conjoined budget enough
  obtain ⟨left, rfl⟩ : ∃ less, left = less + 1 := ⟨left - 1, by omega⟩
  rw [read]
  cases reading with
  | error cause => rfl
  | ok found =>
    show expression.conjunctionRest (left + 1) found rest = .ok (found, rest)
    rw [Expression.conjunctionRest, stop]

theorem Conjoined.disjoined (conjoined : Conjoined expression tokens reading)
    (some : 0 < tokens.length) : Disjoined expression tokens reading := by
  intro budget enough
  obtain ⟨budget, rfl⟩ : ∃ less, budget = less + 1 := ⟨budget - 1, by omega⟩
  refine ⟨budget, by omega, fun rest stop => ?_⟩
  rw [Expression.disjunction, conjoined.stops (by omega) stop]
  cases reading <;> rfl

/-- `OR` with a disjunction at its left and a conjunction at its right. -/
theorem Disjoined.or (left : Disjoined expression tokens reading)
    (right : Conjoined expression others reading') :
    Disjoined expression (tokens ++ .word "OR" :: others)
      (do return .or (← reading) (← reading')) := by
  intro budget enough
  rw [List.length_append, List.length_cons] at enough ⊢
  obtain ⟨next, bound, read⟩ := left budget (by omega)
  obtain ⟨next, rfl⟩ : ∃ less, next = less + 1 := ⟨next - 1, by omega⟩
  refine ⟨next, by omega, fun rest stop => ?_⟩
  rw [List.append_assoc, List.cons_append, read _ rfl]
  cases reading with
  | error cause => rfl
  | ok first =>
    show expression.disjunctionRest (next + 1) first (.word "OR" :: (others ++ rest)) = _
    rw [Expression.disjunctionRest]
    show (expression.conjunction next (others ++ rest) >>= _) = _
    rw [right.stops (by omega) stop]
    cases reading' <;> rfl

/-- Where neither `AND` nor `OR` follows, the parser of disjunctions stops. -/
theorem Disjoined.stops (disjoined : Disjoined expression tokens reading) {budget : Nat}
    (enough : 6 * tokens.length + 2 ≤ budget)
    (stop : Expression.afterKeyword? "AND" rest = none)
    (stop' : Expression.afterKeyword? "OR" rest = none) :
    expression.disjunction budget (tokens ++ rest) = reading.map (·, rest) := by
  obtain ⟨left, bound, read⟩ := disjoined budget enough
  obtain ⟨left, rfl⟩ : ∃ less, left = less + 1 := ⟨left - 1, by omega⟩
  rw [read rest stop]
  cases reading with
  | error cause => rfl
  | ok found =>
    show expression.disjunctionRest (left + 1) found rest = .ok (found, rest)
    rw [Expression.disjunctionRest, stop']

/-- A disjunction in parentheses is read as a negation. -/
theorem Disjoined.inParens (disjoined : Disjoined expression tokens reading) :
    Negated expression (.openParen :: (tokens ++ [.closeParen])) reading := by
  intro budget enough rest
  rw [List.length_cons, List.length_append, List.length_singleton] at enough
  obtain ⟨budget, rfl⟩ : ∃ less, budget = less + 2 := ⟨budget - 2, by omega⟩
  rw [List.cons_append, List.append_assoc, List.singleton_append, Expression.negation]
  show expression.primary (budget + 1) (.openParen :: (tokens ++ .closeParen :: rest)) = _
  rw [Expression.primary, disjoined.stops (by omega) rfl rfl]
  cases reading <;> rfl

theorem Negated.not (negated : Negated expression tokens reading) :
    Negated expression (.word "NOT" :: tokens) (do return .not (← reading)) := by
  intro budget enough rest
  rw [List.length_cons] at enough
  obtain ⟨budget, rfl⟩ : ∃ less, budget = less + 1 := ⟨budget - 1, by omega⟩
  rw [List.cons_append, Expression.negation]
  show (expression.negation budget (tokens ++ rest) >>= _) = _
  rw [negated budget (by omega) rest]
  cases reading <;> rfl

/-- A comparison is read as a negation of none. -/
theorem negated_comparison {operand : Placed}
    (read : ∀ rest, expression.comparison (operand.token :: (tokens ++ rest)) =
      reading.map (·, rest)) : Negated expression (operand.token :: tokens) reading := by
  intro budget enough rest
  rw [List.length_cons] at enough
  obtain ⟨budget, rfl⟩ : ∃ less, budget = less + 2 := ⟨budget - 2, by omega⟩
  have first : expression.negation (budget + 2) (operand.token :: (tokens ++ rest)) =
      expression.primary (budget + 1) (operand.token :: (tokens ++ rest)) := by
    cases operand <;> rfl
  rw [List.cons_append, first, Expression.primary_placed, read]

/-- A test is read as a negation of none. -/
theorem negated_called {function : String}
    (other : Expression.isKeyword "NOT" function = false)
    (read : ∀ rest, expression.test function (tokens ++ .closeParen :: rest) =
      reading.map (·, rest)) : Negated expression (called function tokens) reading := by
  intro budget enough rest
  rw [called, List.length_cons, List.length_cons] at enough
  obtain ⟨budget, rfl⟩ : ∃ less, budget = less + 2 := ⟨budget - 2, by omega⟩
  have first : expression.negation (budget + 2) (called function tokens ++ rest) =
      expression.primary (budget + 1) (called function tokens ++ rest) := by
    rw [called, List.cons_append, Expression.negation, Expression.afterKeyword?, other]
    rfl
  rw [first, Expression.primary_called, read]

end

/-! ### Conditions -/

namespace Condition

section

variable {expression : Expression} {condition : Condition Placeholder Placed}

theorem length_write_pos (condition : Condition Placeholder Placed) (level : Nat) :
    0 < (condition.write level).length := by
  cases condition with
  | and left right | or left right =>
    rw [write, Table.inParens]
    split
    · exact Nat.succ_pos _
    · rw [List.length_append, List.length_cons]
      omega
  | _ => exact Nat.succ_pos _

/-- What the parsers of the three levels make of the written forms of a condition. -/
structure Reads (expression : Expression) (condition : Condition Placeholder Placed) : Prop where
  negated : Negated expression (condition.write 2) (expression.conditionOf condition)
  conjoined : Conjoined expression (condition.write 1) (expression.conditionOf condition)
  disjoined : Disjoined expression (condition.write 0) (expression.conditionOf condition)

/-- What is written without a look at the level is read at all of them. -/
theorem Reads.of_negated (negated : Negated expression (condition.write 2)
      (expression.conditionOf condition))
    (same : ∀ level, condition.write level = condition.write 2) : condition.Reads expression := by
  have some := length_write_pos condition 2
  have conjoined := negated.conjoined some
  refine ⟨negated, ?_, ?_⟩
  · rwa [same]
  · rw [same]
    exact conjoined.disjoined some

/-- **The parser of every level reads a condition as it is written for the level.** -/
theorem reads (condition : Condition Placeholder Placed) : condition.Reads expression := by
  induction condition with
  | and left right first second =>
    have conjoined := first.conjoined.and second.negated
    have disjoined := conjoined.disjoined (length_write_pos (.and left right) 1)
    exact ⟨disjoined.inParens, conjoined, disjoined⟩
  | or left right first second =>
    have disjoined := first.disjoined.or second.conjoined
    have negated := disjoined.inParens
    exact ⟨negated, negated.conjoined (Nat.succ_pos _), disjoined⟩
  | not inner reads => exact .of_negated reads.negated.not fun _ => rfl
  | compare left relation right =>
    exact .of_negated (negated_comparison
      fun rest => Expression.comparison_compare rest left relation right) fun _ => rfl
  | between value low high =>
    exact .of_negated (negated_comparison
      fun rest => Expression.comparison_between rest value low high) fun _ => rfl
  | present name =>
    exact .of_negated (negated_called rfl fun rest => Expression.test_present rest name)
      fun _ => rfl
  | absent name =>
    exact .of_negated (negated_called rfl fun rest => Expression.test_absent rest name) fun _ => rfl
  | beginsWith target start =>
    exact .of_negated (negated_called rfl
      fun rest => Expression.test_beginsWith rest target start) fun _ => rfl
  | contains target member =>
    exact .of_negated (negated_called rfl
      fun rest => Expression.test_contains rest target member) fun _ => rfl

end

end Condition

/-- **A text of a condition is read as the condition that its placeholders make of it.** -/
theorem Expression.condition_of_spells {expression : Expression}
    {written : Condition Placeholder Placed}
    (spells : Spells (written.write 0) expression.text.toList) :
    expression.condition = expression.conditionOf written := by
  have split : expression.tokens = .ok (written.write 0) := by
    rw [Expression.tokens, tokens_eq_ok_iff.mpr spells]
    rfl
  have read : expression.disjunction (6 * (written.write 0).length + 6) (written.write 0 ++ []) =
      (expression.conditionOf written).map (·, []) :=
    (Condition.reads written).disjoined.stops (by omega) rfl rfl
  rw [List.append_nil] at read
  rw [Expression.condition, split]
  show (expression.disjunction (6 * (written.write 0).length + 6) (written.write 0) >>= _) = _
  rw [read]
  cases expression.conditionOf written <;> rfl

end FieldResolver.Table

/-
**The order of clauses.**

An update's text is a sequence of clauses, each of which is read in the same way wherever it stands.
So clauses of different kinds may trade places: what is read are the actions of each kind in the
order in which the clauses of that kind are written.

* `Expression.reworded`: an expression with another text and the same placeholders;
* `attributeName_front`, `operand_front`, `setTerm_front`, `setRest_front`, `setValue_front`,
  `action_front`, `actions_front`: what each parser takes from the front of tokens, it takes
  whatever follows;
* `Piece`, `Expression.IsClause`: tokens that are one clause, and the update that it makes;
* `clauses_pieces`, `exists_pieces`: clauses in a row are read as the update that they make
  together, and whatever is read as an update are clauses in a row;
* `Rearranged`: the same clauses in an order that differs only between kinds;
* `update_of_rearranged`: they make the same update.
-/

import FieldResolver.Proofs.Expression.Clauses

namespace FieldResolver.Table

open Fallible

/-- An expression with another text and the same placeholders. -/
def Expression.reworded (expression : Expression) (text : String) : Expression :=
  { expression with text := text }

namespace Expression

section

variable {expression : Expression} {tokens rest : List Token}

/-! ### Single tokens -/

/-- The name of an attribute is one token, whatever follows it. -/
theorem attributeName_front {name : String}
    (read : expression.attributeName tokens = .ok (name, rest)) :
    ∃ token, tokens = token :: rest ∧
      ∀ text more, (expression.reworded text).attributeName (token :: more) = .ok (name, more) := by
  unfold attributeName at read
  split at read
  · cases read
    exact ⟨_, rfl, fun _ _ => rfl⟩
  · rename_i placeholder behind
    split at read
    · rename_i found
      cases read
      refine ⟨_, rfl, fun text more => ?_⟩
      have again : (expression.reworded text).names.get? placeholder = some name := found
      rw [attributeName, again]
    · cases read
  · cases read

/-- A value is one token, whatever follows it. -/
theorem value_front {value : Json} (read : expression.value tokens = .ok (value, rest)) :
    ∃ placeholder, tokens = .value placeholder :: rest ∧
      ∀ text more,
        (expression.reworded text).value (.value placeholder :: more) = .ok (value, more) := by
  unfold Expression.value at read
  split at read
  · rename_i placeholder behind
    split at read
    · rename_i found
      cases read
      refine ⟨placeholder, rfl, fun text more => ?_⟩
      have again : (expression.reworded text).values.get? placeholder = some value := found
      rw [Expression.value, again]
    · cases read
  · cases read

/-- An operand is one token, whatever follows it. -/
theorem operand_front {operand : Operand}
    (read : expression.operand tokens = .ok (operand, rest)) :
    ∃ token, tokens = token :: rest ∧
      ∀ text more, (expression.reworded text).operand (token :: more) = .ok (operand, more) := by
  unfold Expression.operand at read
  split at read
  · obtain ⟨⟨value, behind⟩, found, same⟩ := map_ok read
    cases same
    obtain ⟨placeholder, shape, takes⟩ := value_front found
    cases shape
    refine ⟨_, rfl, fun text more => ?_⟩
    rw [Expression.operand, takes text more]
    rfl
  · rename_i noValue
    obtain ⟨⟨name, behind⟩, found, same⟩ := map_ok read
    cases same
    obtain ⟨token, rfl, takes⟩ := attributeName_front found
    refine ⟨token, rfl, fun text more => ?_⟩
    unfold Expression.operand
    split
    · rename_i shape
      cases shape
      exact absurd rfl (noValue _ _)
    · rw [takes text more]
      rfl

/-- A token that has to come next is there. -/
theorem expect_front {wanted : Token} (read : expression.expect wanted tokens = .ok rest) :
    tokens = wanted :: rest := by
  unfold expect at read
  split at read
  · split at read
    · rename_i same
      cases read
      rw [same]
    · cases read
  · cases read

theorem expect_cons (expression : Expression) (wanted : Token) (rest : List Token) :
    expression.expect wanted (wanted :: rest) = .ok rest :=
  if_pos rfl

/-! ### Values to set -/

/-- Two operands are three tokens, whatever follows them. -/
theorem twoOperands_front {first second : Operand}
    (read : expression.twoOperands tokens = .ok ((first, second), rest)) :
    ∃ token other, tokens = token :: .comma :: other :: rest ∧
      ∀ text more, (expression.reworded text).twoOperands (token :: .comma :: other :: more) =
        .ok ((first, second), more) := by
  obtain ⟨⟨left, behind⟩, here, read⟩ := bind_ok read
  obtain ⟨behind, comma, read⟩ := bind_ok read
  obtain ⟨⟨right, behind⟩, there, same⟩ := bind_ok read
  cases same
  obtain ⟨token, rfl, takes⟩ := operand_front here
  cases expect_front comma
  obtain ⟨other, rfl, takes'⟩ := operand_front there
  refine ⟨token, other, rfl, fun text more => ?_⟩
  rw [twoOperands, takes]
  show (Expression.operand _ (other :: more) >>= _) = _
  rw [takes']
  rfl

/-- Whether tokens do not turn a word in front of them into a function. -/
def NotCalled (rest : List Token) : Prop := ∀ token ∈ rest.head?, token ≠ .openParen

/-- A term is read from its front in the same way whatever follows it. -/
theorem setTerm_front {value : SetValue String Operand}
    (read : expression.setTerm tokens = .ok (value, rest)) :
    ∃ front, front ≠ [] ∧ tokens = front ++ rest ∧ ∀ text more, NotCalled more →
      (expression.reworded text).setTerm (front ++ more) = .ok (value, more) := by
  unfold setTerm at read
  split at read
  · simp only at read
    split at read
    · obtain ⟨⟨name, behind⟩, here, read⟩ := bind_ok read
      obtain ⟨behind, comma, read⟩ := bind_ok read
      obtain ⟨⟨fallback, behind⟩, there, read⟩ := bind_ok read
      obtain ⟨_, made, read⟩ := bind_ok read
      cases made
      obtain ⟨last, close, same⟩ := bind_ok read
      cases same
      obtain ⟨token, rfl, takes⟩ := attributeName_front here
      cases expect_front comma
      obtain ⟨other, rfl, takes'⟩ := operand_front there
      cases expect_front close
      refine ⟨.word "if_not_exists" :: .openParen :: token :: .comma :: other :: [.closeParen],
        List.cons_ne_nil _ _, rfl, fun text more _ => ?_⟩
      show Expression.setTerm _ (.word "if_not_exists" :: .openParen :: token :: .comma :: other ::
        .closeParen :: more) = _
      rw [setTerm]
      dsimp only
      rw [takes]
      show (Expression.operand _ (other :: .closeParen :: more) >>= _) = _
      rw [takes']
      rfl
    · obtain ⟨⟨⟨first, second⟩, behind⟩, both, read⟩ := bind_ok read
      obtain ⟨_, made, read⟩ := bind_ok read
      cases made
      obtain ⟨last, close, same⟩ := bind_ok read
      cases same
      obtain ⟨token, other, rfl, takes⟩ := twoOperands_front both
      cases expect_front close
      refine ⟨.word "list_append" :: .openParen :: token :: .comma :: other :: [.closeParen],
        List.cons_ne_nil _ _, rfl, fun text more _ => ?_⟩
      show Expression.setTerm _ (.word "list_append" :: .openParen :: token :: .comma :: other ::
        .closeParen :: more) = _
      rw [setTerm]
      dsimp only
      rw [takes]
      rfl
    · cases read
  · obtain ⟨⟨operand, behind⟩, found, same⟩ := map_ok read
    cases same
    obtain ⟨token, rfl, takes⟩ := operand_front found
    refine ⟨[token], List.cons_ne_nil _ _, rfl, fun text more fits => ?_⟩
    unfold setTerm
    split
    · rename_i shape
      obtain ⟨-, rfl⟩ := List.cons.inj shape
      exact absurd rfl (fits _ rfl)
    · rw [List.singleton_append, takes]
      rfl

/-- Whether an action ends in front of tokens: there are none, a comma or the word of the next
clause. -/
def ActionEnds (rest : List Token) : Prop :=
  ∀ token ∈ rest.head?, token = .comma ∨ ∃ word, token = .word word

theorem ActionEnds.sumEnds (ends : ActionEnds rest) : SumEnds rest := by
  intro token first
  obtain rfl | ⟨word, rfl⟩ := ends token first <;> exact ⟨nofun, nofun⟩

theorem ActionEnds.notCalled (ends : ActionEnds rest) : NotCalled rest := by
  intro token first
  obtain rfl | ⟨word, rfl⟩ := ends token first <;> exact nofun

theorem ClauseEnds.actionEnds (ends : ClauseEnds rest) : ActionEnds rest :=
  fun token first => .inr (ends token first)

/-- What is joined to a term is read in the same way whatever follows it. -/
theorem setRest_front {budget : Nat} {left value : SetValue String Operand}
    (enough : tokens.length ≤ budget)
    (read : expression.setRest budget left tokens = .ok (value, rest)) :
    ∃ front, tokens = front ++ rest ∧ ∀ more, ActionEnds more →
      NotCalled (front ++ more) ∧ ∀ text budget, front.length ≤ budget →
        (expression.reworded text).setRest budget left (front ++ more) = .ok (value, more) := by
  -- without a sign in front nothing is taken
  have stops {tokens : List Token} {left : SetValue String Operand} :
      ∃ front, tokens = front ++ tokens ∧ ∀ more, ActionEnds more →
        NotCalled (front ++ more) ∧ ∀ text budget, front.length ≤ budget →
          (expression.reworded text).setRest budget left (front ++ more) = .ok (left, more) :=
    ⟨[], rfl, fun more ends => ⟨ends.notCalled, fun _ _ _ => setRest_stops ends.sumEnds _ _⟩⟩
  induction budget generalizing left tokens with
  | zero =>
    cases read
    exact stops
  | succ budget ih =>
    unfold setRest at read
    split at read
    case h_3 =>
      cases read
      exact stops
    all_goals
      obtain ⟨⟨right, behind⟩, term, joined⟩ := bind_ok read
      obtain ⟨front, some, rfl, takes⟩ := setTerm_front term
      rw [List.length_cons, List.length_append] at enough
      obtain ⟨others, rfl, below⟩ := ih (by omega) joined
      refine ⟨_ :: (front ++ others), by rw [List.cons_append, List.append_assoc],
        fun more ends => ⟨?_, fun text budget enough => ?_⟩⟩
      · rintro _ ⟨⟩
        exact nofun
      · obtain ⟨notCalled, joins⟩ := below more ends
        rw [List.length_cons, List.length_append] at enough
        obtain ⟨budget, rfl⟩ : ∃ less, budget = less + 1 := ⟨budget - 1, by omega⟩
        rw [List.cons_append, List.append_assoc]
        show (Expression.setTerm _ (front ++ (others ++ more)) >>= _) = _
        rw [takes text _ notCalled]
        exact joins text budget (by omega)

/-- A value to set is read in the same way whatever follows it. -/
theorem setValue_front {value : SetValue String Operand}
    (read : expression.setValue tokens = .ok (value, rest)) :
    ∃ front, front ≠ [] ∧ tokens = front ++ rest ∧ ∀ text more, ActionEnds more →
      (expression.reworded text).setValue (front ++ more) = .ok (value, more) := by
  obtain ⟨⟨left, behind⟩, term, joined⟩ := bind_ok read
  obtain ⟨front, some, rfl, takes⟩ := setTerm_front term
  obtain ⟨others, rfl, below⟩ := setRest_front (Nat.le_refl _) joined
  refine ⟨front ++ others, List.append_ne_nil_of_left_ne_nil some _,
    (List.append_assoc _ _ _).symm, fun text more ends => ?_⟩
  obtain ⟨notCalled, joins⟩ := below more ends
  rw [setValue, List.append_assoc, takes text _ notCalled]
  refine joins text _ ?_
  rw [List.length_append]
  exact Nat.le_add_right _ _

/-! ### Actions -/

end

end Expression

section

variable {ν ο κ : Type} {kind : Kind} {first second : Update ν ο κ}

/-- Whether the actions of an update are of one kind. -/
structure Update.OfKind (kind : Kind) (update : Update ν ο κ) : Prop where
  set : kind ≠ .set → update.set = []
  remove : kind ≠ .remove → update.remove = []
  add : kind ≠ .add → update.add = []
  delete : kind ≠ .delete → update.delete = []

theorem Update.OfKind.append (here : first.OfKind kind) (there : second.OfKind kind) :
    (first.append second).OfKind kind := by
  refine ⟨fun other => ?_, fun other => ?_, fun other => ?_, fun other => ?_⟩
  · exact List.append_eq_nil_iff.mpr ⟨here.set other, there.set other⟩
  · exact List.append_eq_nil_iff.mpr ⟨here.remove other, there.remove other⟩
  · exact List.append_eq_nil_iff.mpr ⟨here.add other, there.add other⟩
  · exact List.append_eq_nil_iff.mpr ⟨here.delete other, there.delete other⟩

theorem Kind.ofKind_update (kind : Kind) (content : kind.Content ν ο κ) :
    (kind.update content).OfKind kind := by
  cases kind with
  | set => exact ⟨nofun, fun _ => rfl, fun _ => rfl, fun _ => rfl⟩
  | remove => exact ⟨fun _ => rfl, nofun, fun _ => rfl, fun _ => rfl⟩
  | add => exact ⟨fun _ => rfl, fun _ => rfl, nofun, fun _ => rfl⟩
  | delete => exact ⟨fun _ => rfl, fun _ => rfl, fun _ => rfl, nofun⟩

theorem Update.append_assoc (first second third : Update ν ο κ) :
    (first.append second).append third = first.append (second.append third) := by
  simp [append]

end

namespace Expression

section

variable {expression : Expression} {tokens rest : List Token} {kind : Kind}
  {update after : ResolvedUpdate}

/-- Only the words of the kinds start a clause that is read. -/
theorem exists_kind {clause : String}
    (read : expression.action clause update tokens = .ok (after, rest)) :
    ∃ kind : Kind, clause = kind.keyword := by
  unfold action at read
  split at read
  · exact ⟨.set, rfl⟩
  · exact ⟨.remove, rfl⟩
  · exact ⟨.add, rfl⟩
  · exact ⟨.delete, rfl⟩
  · cases read

/-- An action is read in the same way whatever follows it, and added to the update. -/
theorem action_front (read : expression.action kind.keyword update tokens = .ok (after, rest)) :
    ∃ (front : List Token) (found : ResolvedUpdate), front ≠ [] ∧ tokens = front ++ rest ∧
      found.OfKind kind ∧ after = update.append found ∧ ∀ text before more, ActionEnds more →
        (expression.reworded text).action kind.keyword before (front ++ more) =
          .ok (before.append found, more) := by
  cases kind with
  | set =>
    rw [Kind.keyword, action] at read
    obtain ⟨⟨name, behind⟩, here, read⟩ := bind_ok read
    obtain ⟨behind, equals, read⟩ := bind_ok read
    obtain ⟨⟨value, behind⟩, there, same⟩ := bind_ok read
    cases same
    obtain ⟨token, rfl, takes⟩ := attributeName_front here
    cases expect_front equals
    obtain ⟨front, some, rfl, takes'⟩ := setValue_front there
    refine ⟨token :: .sign .eq :: front, { set := [(name, value)] }, List.cons_ne_nil _ _, rfl,
      ⟨nofun, fun _ => rfl, fun _ => rfl, fun _ => rfl⟩, ?_, fun text before more ends => ?_⟩
    · simp [Update.append]
    · show (Expression.attributeName _ (token :: .sign .eq :: (front ++ more)) >>= _) = _
      rw [takes]
      show (Expression.setValue _ (front ++ more) >>= _) = _
      rw [takes' text more ends]
      simp [Update.append]
  | remove =>
    rw [Kind.keyword, action] at read
    obtain ⟨⟨name, behind⟩, here, same⟩ := bind_ok read
    cases same
    obtain ⟨token, rfl, takes⟩ := attributeName_front here
    refine ⟨[token], Kind.update .remove name, List.cons_ne_nil _ _, rfl, Kind.ofKind_update _ _,
      ?_, fun text before more ends => ?_⟩
    · simp [Update.append, Kind.update]
    · show (Expression.attributeName _ (token :: more) >>= _) = _
      rw [takes]
      simp [Update.append, Kind.update]
  | add =>
    rw [Kind.keyword, action] at read
    obtain ⟨⟨name, behind⟩, here, read⟩ := bind_ok read
    obtain ⟨⟨value, behind⟩, there, same⟩ := bind_ok read
    cases same
    obtain ⟨token, rfl, takes⟩ := attributeName_front here
    obtain ⟨placeholder, rfl, takes'⟩ := value_front there
    refine ⟨[token, .value placeholder], Kind.update .add (name, value), List.cons_ne_nil _ _, rfl,
      Kind.ofKind_update _ _, ?_, fun text before more ends => ?_⟩
    · simp [Update.append, Kind.update]
    · show (Expression.attributeName _ (token :: .value placeholder :: more) >>= _) = _
      rw [takes]
      show (Expression.value _ (.value placeholder :: more) >>= _) = _
      rw [takes']
      simp [Update.append, Kind.update]
  | delete =>
    rw [Kind.keyword, action] at read
    obtain ⟨⟨name, behind⟩, here, read⟩ := bind_ok read
    obtain ⟨⟨value, behind⟩, there, same⟩ := bind_ok read
    cases same
    obtain ⟨token, rfl, takes⟩ := attributeName_front here
    obtain ⟨placeholder, rfl, takes'⟩ := value_front there
    refine ⟨[token, .value placeholder], Kind.update .delete (name, value), List.cons_ne_nil _ _,
      rfl, Kind.ofKind_update _ _, ?_, fun text before more ends => ?_⟩
    · simp [Update.append, Kind.update]
    · show (Expression.attributeName _ (token :: .value placeholder :: more) >>= _) = _
      rw [takes]
      show (Expression.value _ (.value placeholder :: more) >>= _) = _
      rw [takes']
      simp [Update.append, Kind.update]

/-- The actions of a clause are read in the same way whatever clause follows. -/
theorem actions_front {budget : Nat} (enough : tokens.length < budget)
    (read : expression.actions kind.keyword budget update tokens = .ok (after, rest)) :
    ∃ (front : List Token) (found : ResolvedUpdate), tokens = front ++ rest ∧
      found.OfKind kind ∧ after = update.append found ∧
        ∀ text before more budget, ClauseEnds more → front.length < budget →
          (expression.reworded text).actions kind.keyword budget before (front ++ more) =
            .ok (before.append found, more) := by
  induction budget generalizing update tokens with
  | zero => exact absurd enough (Nat.not_lt_zero _)
  | succ budget ih =>
    unfold actions at read
    obtain ⟨⟨middle, behind⟩, here, read⟩ := bind_ok read
    obtain ⟨front, found, some, rfl, ofKind, rfl, takes⟩ := action_front here
    rw [List.length_append] at enough
    have least := List.length_pos_of_ne_nil some
    simp only at read
    split at read
    · rename_i behind
      rw [List.length_cons] at enough
      obtain ⟨others, found', rfl, ofKind', rfl, takes'⟩ := ih (by omega) read
      refine ⟨front ++ .comma :: others, found.append found', by simp, ofKind.append ofKind',
        Update.append_assoc _ _ _, fun text before more budget ends room => ?_⟩
      rw [List.length_append, List.length_cons] at room
      obtain ⟨budget, rfl⟩ : ∃ less, budget = less + 1 := ⟨budget - 1, by omega⟩
      rw [List.append_assoc, List.cons_append, actions, takes text before]
      · show Expression.actions _ kind.keyword budget _ (others ++ more) = _
        rw [takes' text _ more budget ends (by omega), Update.append_assoc]
      · rintro _ ⟨⟩
        exact .inl rfl
    · cases read
      refine ⟨front, found, rfl, ofKind, rfl, fun text before more budget ends room => ?_⟩
      obtain ⟨budget, rfl⟩ : ∃ less, budget = less + 1 := ⟨budget - 1, by omega⟩
      rw [actions, takes text before more ends.actionEnds]
      dsimp only [bind, Except.bind]
      split
      · obtain ⟨word, same⟩ := ends _ rfl
        cases same
      · rfl

end

end Expression

/-! ### Pieces of a text -/

/-- A piece of a text: the tokens of a clause, and the update that it makes. -/
structure Piece where
  kind : Kind
  tokens : List Token
  update : Expression.ResolvedUpdate

namespace Expression

/-- Whether a piece is a clause that makes its update: the word of its kind, in front of actions up
to its end. -/
def IsClause (expression : Expression) (piece : Piece) : Prop :=
  ∃ word actions, piece.tokens = .word word :: actions ∧
    String.ofList (word.toList.map Char.toUpper) = piece.kind.keyword ∧
      expression.actions piece.kind.keyword (actions.length + 1) {} actions = .ok (piece.update, [])

section

variable {expression : Expression} {tokens rest : List Token} {piece : Piece} {pieces : List Piece}

theorem IsClause.ofKind (clause : expression.IsClause piece) : piece.update.OfKind piece.kind := by
  obtain ⟨word, actions, -, -, read⟩ := clause
  obtain ⟨front, found, -, ofKind, same, -⟩ := actions_front (Nat.lt_succ_self _) read
  rw [same, Update.empty_append]
  exact ofKind

theorem clauseEnds_pieces (clauses : ∀ piece ∈ pieces, expression.IsClause piece) :
    ClauseEnds (pieces.flatMap Piece.tokens) := by
  cases pieces with
  | nil => exact fun _ first => nomatch first
  | cons piece pieces =>
    obtain ⟨word, actions, shape, -⟩ := clauses piece List.mem_cons_self
    rw [List.flatMap_cons, shape]
    rintro token ⟨⟩
    exact ⟨word, rfl⟩

/-- **Clauses in a row are read as the update that they make together,** whatever else the text of
the expression is. -/
theorem clauses_pieces (text : String) (clauses : ∀ piece ∈ pieces, expression.IsClause piece)
    {budget : Nat} (enough : (pieces.flatMap Piece.tokens).length ≤ budget)
    (before : ResolvedUpdate) :
    (expression.reworded text).clauses budget before (pieces.flatMap Piece.tokens) =
      .ok (before.append (.joined (pieces.map Piece.update))) := by
  induction pieces generalizing budget before with
  | nil =>
    rw [List.map_nil, Update.append_joined_nil]
    cases budget <;> rfl
  | cons piece pieces ih =>
    obtain ⟨first, others⟩ := List.forall_mem_cons.mp clauses
    obtain ⟨word, actions, shape, keyword, read⟩ := first
    obtain ⟨front, found, split, -, same, takes⟩ := actions_front (Nat.lt_succ_self _) read
    rw [List.append_nil] at split
    subst split
    rw [Update.empty_append] at same
    rw [List.flatMap_cons, shape, List.cons_append] at enough ⊢
    rw [List.length_cons, List.length_append] at enough
    obtain ⟨budget, rfl⟩ : ∃ less, budget = less + 1 := ⟨budget - 1, by omega⟩
    have room : actions.length < (actions ++ pieces.flatMap Piece.tokens).length + 1 := by
      rw [List.length_append]
      omega
    rw [Expression.clauses, keyword, takes text before _ _ (clauseEnds_pieces others) room]
    show Expression.clauses _ budget (before.append found) _ = _
    rw [ih others (by omega), List.map_cons, ← same, Update.append_joined_cons]

/-- **What is read as an update are clauses in a row.** -/
theorem exists_pieces {budget : Nat} {update after : ResolvedUpdate}
    (enough : tokens.length ≤ budget) (read : expression.clauses budget update tokens = .ok after) :
    ∃ pieces : List Piece, (∀ piece ∈ pieces, expression.IsClause piece) ∧
      tokens = pieces.flatMap Piece.tokens ∧
        after = update.append (.joined (pieces.map Piece.update)) := by
  induction budget generalizing tokens update with
  | zero =>
    cases read
    exact ⟨[], List.forall_mem_nil _, List.eq_nil_of_length_eq_zero (Nat.le_zero.mp enough),
      (Update.append_joined_nil _).symm⟩
  | succ budget ih =>
    cases tokens with
    | nil =>
      cases read
      exact ⟨[], List.forall_mem_nil _, rfl, (Update.append_joined_nil _).symm⟩
    | cons token behind =>
      cases token with
      | word word =>
        obtain ⟨⟨middle, rest⟩, found, below⟩ := bind_ok read
        obtain ⟨⟨_, _⟩, first, -⟩ := bind_ok found
        obtain ⟨kind, keyword⟩ := exists_kind first
        rw [keyword] at found
        obtain ⟨front, made, rfl, -, rfl, takes⟩ := actions_front (Nat.lt_succ_self _) found
        rw [List.length_cons, List.length_append] at enough
        obtain ⟨pieces, clauses, rfl, rfl⟩ := ih (by omega) below
        have alone := takes expression.text {} [] (front.length + 1) (fun _ first => nomatch first)
          (Nat.lt_succ_self _)
        rw [List.append_nil, Update.empty_append] at alone
        refine ⟨⟨kind, .word word :: front, made⟩ :: pieces,
          List.forall_mem_cons.mpr ⟨⟨word, front, rfl, keyword, alone⟩, clauses⟩, rfl, ?_⟩
        exact Update.append_joined_cons _ _ _
      | _ => cases read

end

end Expression

/-! ### Other orders -/

/-- Items that contribute nothing may be left out. -/
theorem flatMap_filter_of_nil {α β : Type} {kept : α → Bool} {write : α → List β} {items : List α}
    (none : ∀ item ∈ items, kept item = false → write item = []) :
    (items.filter kept).flatMap write = items.flatMap write := by
  induction items with
  | nil => rfl
  | cons item items ih =>
    obtain ⟨first, others⟩ := List.forall_mem_cons.mp none
    rw [List.flatMap_cons, ← ih others, List.filter_cons]
    split
    · rfl
    · rename_i dropped
      rw [first (by simpa using dropped), List.nil_append]

/-- Whether pieces are the same as others in an order that differs only between kinds. -/
def Rearranged (others pieces : List Piece) : Prop :=
  ∀ kind, others.filter (·.kind = kind) = pieces.filter (·.kind = kind)

section

variable {expression : Expression} {pieces others : List Piece}

theorem Rearranged.subset (rearranged : Rearranged others pieces) : others ⊆ pieces := by
  intro piece member
  have same := rearranged piece.kind
  have kept : piece ∈ others.filter (·.kind = piece.kind) :=
    List.mem_filter.mpr ⟨member, decide_eq_true rfl⟩
  rw [same] at kept
  exact List.mem_of_mem_filter kept

/-- The actions of one kind are those of the pieces of that kind. -/
theorem flatMap_kind {α : Type} {actions : Expression.ResolvedUpdate → List α} {kind : Kind}
    (only : ∀ piece ∈ pieces, piece.kind ≠ kind → actions piece.update = []) :
    (pieces.filter (·.kind = kind)).flatMap (fun piece => actions piece.update) =
      (pieces.map Piece.update).flatMap actions := by
  rw [List.flatMap_map, flatMap_filter_of_nil]
  exact fun piece member other => only piece member (of_decide_eq_false other)

/-- **Pieces that are rearranged make the same update.** -/
theorem Rearranged.joined (rearranged : Rearranged others pieces)
    (clauses : ∀ piece ∈ pieces, expression.IsClause piece) :
    Update.joined (others.map Piece.update) = .joined (pieces.map Piece.update) := by
  have ofKind (piece : Piece) (member : piece ∈ pieces) : piece.update.OfKind piece.kind :=
    (clauses piece member).ofKind
  have same {α : Type} (actions : Expression.ResolvedUpdate → List α) (kind : Kind)
      (only : ∀ piece ∈ pieces, piece.kind ≠ kind → actions piece.update = []) :
      (others.map Piece.update).flatMap actions = (pieces.map Piece.update).flatMap actions := by
    rw [← flatMap_kind only,
      ← flatMap_kind fun piece member => only piece (rearranged.subset member), rearranged kind]
  rw [Update.joined, Update.joined,
    same Update.set .set fun piece member => (ofKind piece member).set,
    same Update.remove .remove fun piece member => (ofKind piece member).remove,
    same Update.add .add fun piece member => (ofKind piece member).add,
    same Update.delete .delete fun piece member => (ofKind piece member).delete]

/-- **A text is the text of clauses, and in every order of them that differs only between kinds they
are read as the same update.** -/
theorem update_of_rearranged {update : Expression.ResolvedUpdate}
    (read : expression.update = .ok update) :
    ∃ pieces : List Piece, (∀ piece ∈ pieces, expression.IsClause piece) ∧
      Spells (pieces.flatMap Piece.tokens) expression.text.toList ∧
        ∀ others, Rearranged others pieces →
          (∃ text : String, Spells (others.flatMap Piece.tokens) text.toList) ∧
            ∀ text : String, Spells (others.flatMap Piece.tokens) text.toList →
              (expression.reworded text).update = .ok update := by
  obtain ⟨tokens, split, read⟩ := bind_ok read
  obtain ⟨pieces, clauses, rfl, made⟩ := Expression.exists_pieces (Nat.le_refl _) read
  rw [Update.empty_append] at made
  have spells := tokens_eq_ok_iff.mp (mapError_ok split)
  refine ⟨pieces, clauses, spells, fun others rearranged => ⟨?_, fun text spells => ?_⟩⟩
  · refine ⟨String.ofList (spacedTokens (others.flatMap Piece.tokens)), ?_⟩
    rw [String.toList_ofList]
    refine spells_spaced fun token member => spells.formed token ?_
    obtain ⟨piece, inOthers, inPiece⟩ := List.mem_flatMap.mp member
    exact List.mem_flatMap.mpr ⟨piece, rearranged.subset inOthers, inPiece⟩
  · have split : (expression.reworded text).tokens = .ok (others.flatMap Piece.tokens) := by
      rw [Expression.tokens]
      show (Table.tokens text.toList).mapError _ = _
      rw [tokens_eq_ok_iff.mpr spells]
      rfl
    have clauses' : ∀ piece ∈ others, expression.IsClause piece :=
      fun piece member => clauses piece (rearranged.subset member)
    rw [Expression.update, split]
    show Expression.clauses _ _ {} (others.flatMap Piece.tokens) = _
    rw [Expression.clauses_pieces text clauses' (Nat.le_refl _), Update.empty_append,
      rearranged.joined clauses, made]

end

end FieldResolver.Table

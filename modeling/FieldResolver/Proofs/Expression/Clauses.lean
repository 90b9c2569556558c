/-
**Updates are read as they are written.**

An update over placeholders is a list of clauses, each of them a kind with one action or more. What
is read of its text are the actions of all clauses, sorted by kind, in the order of the text, with
every placeholder replaced by what it stands for; or the fault of the first placeholder that stands
for nothing.

* `Terms`, `Kind.Content`, `Clause`: what is written, with sums joined from the left;
* `Clause.write`, `Clause.traverse`: the written form, and a clause with every placeholder replaced;
* `Update.joined`: the actions of several updates, kind by kind;
* `setValue_terms`, `action_content`, `actions_contents`, `clauses_written`: what the parsers make
  of it, from the terms of a sum to all clauses;
* `written_readBack`: conditions and updates are read back from their texts.
-/

import FieldResolver.Proofs.Expression.Conditions

namespace FieldResolver.Table

/-! ### Clauses -/

/-- A term of a value to set. -/
inductive Term (ν ο : Type) where
  | operand (operand : ο)
  | ifNotExists (name : ν) (fallback : ο)
  | listAppend (first second : ο)

/-- How a term is joined to those in front of it. -/
inductive Joint where
  | plus | minus

/-- A value to set: terms that are joined from the left. -/
structure Terms (ν ο : Type) where
  first : Term ν ο
  others : List (Joint × Term ν ο)

/-- The kinds of actions. -/
inductive Kind where
  | set | remove | add | delete
deriving DecidableEq

/-- What an action of a kind says. -/
def Kind.Content (ν ο κ : Type) : Kind → Type
  | .set => ν × Terms ν ο
  | .remove => ν
  | .add | .delete => ν × κ

/-- A clause: actions of one kind. -/
structure Clause (ν ο κ : Type) where
  kind : Kind
  first : kind.Content ν ο κ
  others : List (kind.Content ν ο κ)

/-! ### The update of clauses -/

section

variable {ν ο κ : Type}

/-- The value of a term. -/
def Term.value : Term ν ο → SetValue ν ο
  | .operand single => .operand single
  | .ifNotExists name fallback => .ifNotExists name fallback
  | .listAppend first second => .listAppend first second

/-- A value joined to one in front of it. -/
def Joint.join : Joint → SetValue ν ο → SetValue ν ο → SetValue ν ο
  | .plus, left, right => .plus left right
  | .minus, left, right => .minus left right

/-- The value of terms, with more terms joined to a value. -/
def joinAll (left : SetValue ν ο) (others : List (Joint × Term ν ο)) : SetValue ν ο :=
  others.foldl (fun left next => next.1.join left next.2.value) left

/-- The value of a sum. -/
def Terms.value (terms : Terms ν ο) : SetValue ν ο := joinAll terms.first.value terms.others

/-- The update of a single action. -/
def Kind.update : (kind : Kind) → kind.Content ν ο κ → Update ν ο κ
  | .set, (name, terms) => { set := [(name, terms.value)] }
  | .remove, name => { remove := [name] }
  | .add, action => { add := [action] }
  | .delete, action => { delete := [action] }

/-- The updates of a clause's actions in their order. -/
def Clause.updates (clause : Clause ν ο κ) : List (Update ν ο κ) :=
  (clause.first :: clause.others).map (Kind.update clause.kind)

/-- The actions of one update behind those of another. -/
def Update.append (first second : Update ν ο κ) : Update ν ο κ where
  set := first.set ++ second.set
  remove := first.remove ++ second.remove
  add := first.add ++ second.add
  delete := first.delete ++ second.delete

/-- The actions of several updates: those of each kind in the order of the updates. -/
def Update.joined (updates : List (Update ν ο κ)) : Update ν ο κ where
  set := updates.flatMap Update.set
  remove := updates.flatMap Update.remove
  add := updates.flatMap Update.add
  delete := updates.flatMap Update.delete

/-- The update that clauses make together. -/
def Update.ofClauses (clauses : List (Clause ν ο κ)) : Update ν ο κ :=
  .joined (clauses.flatMap Clause.updates)

theorem Update.append_joined_cons (before first : Update ν ο κ) (updates : List (Update ν ο κ)) :
    (before.append first).append (.joined updates) =
      before.append (.joined (first :: updates)) := by
  simp [append, joined]

theorem Update.append_joined_append (before : Update ν ο κ) (first second : List (Update ν ο κ)) :
    (before.append (.joined first)).append (.joined second) =
      before.append (.joined (first ++ second)) := by
  simp [append, joined]

theorem Update.append_joined_nil (before : Update ν ο κ) :
    before.append (.joined []) = before := by
  simp [append, joined]

theorem Update.append_joined_singleton (before first : Update ν ο κ) :
    before.append (.joined [first]) = before.append first := by
  simp [append, joined]

theorem Update.empty_append (update : Update ν ο κ) : Update.append {} update = update := by
  simp [append]

end

/-! ### The written form -/

/-- How a term is written. -/
def Term.write : Term Placeholder Placed → List Token
  | .operand single => [single.token]
  | .ifNotExists name fallback => called "if_not_exists" [.name name.name, .comma, fallback.token]
  | .listAppend first second => called "list_append" [first.token, .comma, second.token]

/-- The sign that joins a term. -/
def Joint.sign : Joint → Sign
  | .plus => .plus
  | .minus => .minus

/-- How the terms behind the first are written. -/
def writeOthers (others : List (Joint × Term Placeholder Placed)) : List Token :=
  others.flatMap fun next => .sign next.1.sign :: next.2.write

/-- What is written with a token in front of each item has at least as many tokens as items. -/
theorem length_le_flatMap {α : Type} (head : α → Token) (write : α → List Token)
    (items : List α) :
    items.length ≤ (items.flatMap fun item => head item :: write item).length := by
  induction items with
  | nil => exact Nat.le_refl _
  | cons item items ih =>
    rw [List.flatMap_cons, List.length_append, List.length_cons, List.length_cons]
    omega

/-- How a sum is written. -/
def Terms.write (terms : Terms Placeholder Placed) : List Token :=
  terms.first.write ++ writeOthers terms.others

/-- The word that a clause starts with. -/
def Kind.keyword : Kind → String
  | .set => "SET"
  | .remove => "REMOVE"
  | .add => "ADD"
  | .delete => "DELETE"

/-- How an action is written. -/
def Kind.write : (kind : Kind) → kind.Content Placeholder Placed Placeholder → List Token
  | .set, (name, terms) => .name name.name :: .sign .eq :: terms.write
  | .remove, name => [.name name.name]
  | .add, (name, value) | .delete, (name, value) => [.name name.name, .value value.value]

/-- How the actions behind the first are written. -/
def Kind.writeOthers (kind : Kind) (others : List (kind.Content Placeholder Placed Placeholder)) :
    List Token :=
  others.flatMap fun action => .comma :: kind.write action

/-- How a clause is written. -/
def Clause.write (clause : Clause Placeholder Placed Placeholder) : List Token :=
  .word clause.kind.keyword ::
    (clause.kind.write clause.first ++ clause.kind.writeOthers clause.others)

/-- How clauses are written. -/
def writeClauses (clauses : List (Clause Placeholder Placed Placeholder)) : List Token :=
  clauses.flatMap Clause.write

/-! ### Clauses with their placeholders replaced -/

section

variable {ε ν ν' ο ο' κ κ' : Type} (name : ν → Except ε ν') (operand : ο → Except ε ο')
  (value : κ → Except ε κ')

/-- A term with its names and operands replaced. -/
def Term.traverse : Term ν ο → Except ε (Term ν' ο')
  | .operand single => do return .operand (← operand single)
  | .ifNotExists found fallback => do return .ifNotExists (← name found) (← operand fallback)
  | .listAppend first second => do return .listAppend (← operand first) (← operand second)

/-- A term with its names and operands replaced, joined as before. -/
def Term.traverseNext (next : Joint × Term ν ο) : Except ε (Joint × Term ν' ο') := do
  return (next.1, ← next.2.traverse name operand)

/-- A sum with the names and operands of its terms replaced. -/
def Terms.traverse (terms : Terms ν ο) : Except ε (Terms ν' ο') := do
  return ⟨← terms.first.traverse name operand,
    ← terms.others.mapM (Term.traverseNext name operand)⟩

/-- An action with its names, operands and values replaced. -/
def Kind.traverse : (kind : Kind) → kind.Content ν ο κ → Except ε (kind.Content ν' ο' κ')
  | .set, (found, terms) => do return (← name found, ← terms.traverse name operand)
  | .remove, found => name found
  | .add, (found, added) => do return (← name found, ← value added)
  | .delete, (found, removed) => do return (← name found, ← value removed)

/-- A clause with its names, operands and values replaced, from left to right. -/
def Clause.traverse (clause : Clause ν ο κ) : Except ε (Clause ν' ο' κ') := do
  return ⟨clause.kind, ← clause.kind.traverse name operand value clause.first,
    ← clause.others.mapM (clause.kind.traverse name operand value)⟩

end

/-- The clause that one over placeholders stands for. -/
def Expression.clauseOf (expression : Expression) (clause : Clause Placeholder Placed Placeholder) :
    Except ExpressionError (Clause String Operand Json) :=
  clause.traverse expression.nameOf expression.operandOf expression.valueOf

/-! ### Sums -/

namespace Expression

section

variable {expression : Expression} {rest : List Token}

/-- A term is read from its front. -/
theorem setTerm_term (term : Term Placeholder Placed) (rest : List Token) :
    expression.setTerm (term.write ++ rest) =
      (term.traverse expression.nameOf expression.operandOf).map fun found =>
        (found.value, rest) := by
  cases term with
  | operand operand =>
    have first : expression.setTerm (operand.token :: rest) =
        (expression.operand (operand.token :: rest)).map fun read =>
          (.operand read.1, read.2) := by
      cases operand <;> rfl
    rw [Term.write, List.singleton_append, first, operand_placed, Term.traverse]
    cases expression.operandOf operand <;> rfl
  | ifNotExists name fallback =>
    show expression.setTerm (.word "if_not_exists" :: .openParen :: .name name.name :: .comma ::
      fallback.token :: .closeParen :: rest) = _
    rw [setTerm, Term.traverse]
    dsimp only
    rw [attributeName_placeholder]
    cases expression.nameOf name with
    | error cause => rfl
    | ok name =>
      show (expression.operand (fallback.token :: .closeParen :: rest) >>= _) = _
      rw [operand_placed]
      cases expression.operandOf fallback <;> rfl
  | listAppend first second =>
    show expression.setTerm (.word "list_append" :: .openParen :: first.token :: .comma ::
      second.token :: .closeParen :: rest) = _
    rw [setTerm, Term.traverse]
    dsimp only
    rw [twoOperands_placed]
    cases expression.operandOf first with
    | error cause => rfl
    | ok first => cases expression.operandOf second <;> rfl

/-- Whether a sum ends in front of tokens. -/
def SumEnds (rest : List Token) : Prop :=
  ∀ token ∈ rest.head?, token ≠ .sign .plus ∧ token ≠ .sign .minus

theorem setRest_stops (ends : SumEnds rest) (budget : Nat) (left : SetValue String Operand) :
    expression.setRest budget left rest = .ok (left, rest) := by
  cases budget with
  | zero => rfl
  | succ budget =>
    unfold setRest
    split
    · exact absurd rfl (ends _ rfl).1
    · exact absurd rfl (ends _ rfl).2
    · rfl

/-- The terms behind the first are joined to it one after another. -/
theorem setRest_others (ends : SumEnds rest) (others : List (Joint × Term Placeholder Placed))
    {budget : Nat} (enough : others.length ≤ budget) (left : SetValue String Operand) :
    expression.setRest budget left (writeOthers others ++ rest) =
      (others.mapM (Term.traverseNext expression.nameOf expression.operandOf)).map fun found =>
        (joinAll left found, rest) := by
  induction others generalizing budget left with
  | nil => exact setRest_stops ends budget left
  | cons next others ih =>
    obtain ⟨joint, term⟩ := next
    rw [List.length_cons] at enough
    obtain ⟨budget, rfl⟩ : ∃ less, budget = less + 1 := ⟨budget - 1, by omega⟩
    have first : expression.setRest (budget + 1) left
        (.sign joint.sign :: (term.write ++ (writeOthers others ++ rest))) =
          (expression.setTerm (term.write ++ (writeOthers others ++ rest)) >>= fun read =>
            expression.setRest budget (joint.join left read.1) read.2) := by
      cases joint <;> rfl
    have split : writeOthers ((joint, term) :: others) ++ rest =
        .sign joint.sign :: (term.write ++ (writeOthers others ++ rest)) := by
      simp [writeOthers]
    rw [split, first, setTerm_term, List.mapM_cons, Term.traverseNext]
    cases term.traverse expression.nameOf expression.operandOf with
    | error cause => rfl
    | ok found =>
      show expression.setRest budget (joint.join left found.value) _ = _
      rw [ih (by omega)]
      cases others.mapM (Term.traverseNext expression.nameOf expression.operandOf) <;> rfl

/-- **A sum is read as its terms, joined from the left.** -/
theorem setValue_terms (ends : SumEnds rest) (terms : Terms Placeholder Placed) :
    expression.setValue (terms.write ++ rest) =
      (terms.traverse expression.nameOf expression.operandOf).map fun found =>
        (found.value, rest) := by
  have enough : terms.others.length ≤ (writeOthers terms.others ++ rest).length := by
    rw [List.length_append]
    exact (length_le_flatMap _ _ _).trans (Nat.le_add_right _ _)
  rw [setValue, Terms.write, List.append_assoc, setTerm_term, Terms.traverse]
  cases terms.first.traverse expression.nameOf expression.operandOf with
  | error cause => rfl
  | ok first =>
    show expression.setRest _ first.value (writeOthers terms.others ++ rest) = _
    rw [setRest_others ends terms.others enough]
    cases terms.others.mapM (Term.traverseNext expression.nameOf expression.operandOf) <;> rfl

/-! ### Actions and clauses -/

/-- **An action is read from its front** and added to the actions of its kind. -/
theorem action_content (ends : SumEnds rest) (kind : Kind)
    (action : kind.Content Placeholder Placed Placeholder) (before : ResolvedUpdate) :
    expression.action kind.keyword before (kind.write action ++ rest) =
      (kind.traverse expression.nameOf expression.operandOf expression.valueOf action).map
        fun found => (before.append (kind.update found), rest) := by
  cases kind with
  | set =>
    obtain ⟨name, terms⟩ := action
    show (expression.attributeName (.name name.name :: .sign .eq :: (terms.write ++ rest)) >>= _) =
      (expression.nameOf name >>= _).map _
    rw [attributeName_placeholder]
    cases expression.nameOf name with
    | error cause => rfl
    | ok name =>
      show (expression.setValue (terms.write ++ rest) >>= _) =
        (terms.traverse expression.nameOf expression.operandOf >>= _).map _
      rw [setValue_terms ends]
      cases terms.traverse expression.nameOf expression.operandOf with
      | error cause => rfl
      | ok found =>
        refine congrArg (fun update => Except.ok (update, rest)) ?_
        simp [Update.append, Kind.update]
  | remove =>
    change Placeholder at action
    show (expression.attributeName (.name (Placeholder.name action) :: rest) >>= _) =
      (expression.nameOf action).map _
    rw [attributeName_placeholder]
    cases expression.nameOf action with
    | error cause => rfl
    | ok name =>
      refine congrArg (fun update => Except.ok (update, rest)) ?_
      simp [Update.append, Kind.update]
  | add | delete =>
    obtain ⟨name, value⟩ := action
    show (expression.attributeName (.name name.name :: .value value.value :: rest) >>= _) =
      (expression.nameOf name >>= _).map _
    rw [attributeName_placeholder]
    cases expression.nameOf name with
    | error cause => rfl
    | ok name =>
      show (expression.value (.value value.value :: rest) >>= _) =
        (expression.valueOf value >>= _).map _
      rw [value_placeholder]
      cases expression.valueOf value with
      | error cause => rfl
      | ok found =>
        refine congrArg (fun update => Except.ok (update, rest)) ?_
        simp [Update.append, Kind.update]

/-- Whether a clause ends in front of tokens: there are none, or the word of the next clause. -/
def ClauseEnds (rest : List Token) : Prop := ∀ token ∈ rest.head?, ∃ word, token = .word word

theorem ClauseEnds.sumEnds (ends : ClauseEnds rest) : SumEnds rest := by
  intro token first
  obtain ⟨word, rfl⟩ := ends token first
  exact ⟨nofun, nofun⟩

theorem sumEnds_others (ends : ClauseEnds rest) (kind : Kind)
    (others : List (kind.Content Placeholder Placed Placeholder)) :
    SumEnds (kind.writeOthers others ++ rest) := by
  cases others with
  | nil => exact ends.sumEnds
  | cons action others =>
    rintro token ⟨⟩
    exact ⟨nofun, nofun⟩

/-- The actions of a clause are read one after another. -/
theorem actions_contents (ends : ClauseEnds rest) (kind : Kind)
    (first : kind.Content Placeholder Placed Placeholder)
    (others : List (kind.Content Placeholder Placed Placeholder)) {budget : Nat}
    (enough : others.length < budget) (before : ResolvedUpdate) :
    expression.actions kind.keyword budget before
        (kind.write first ++ (kind.writeOthers others ++ rest)) =
      ((first :: others).mapM
        (kind.traverse expression.nameOf expression.operandOf expression.valueOf)).map
        fun found => (before.append (.joined (found.map kind.update)), rest) := by
  induction others generalizing first budget before with
  | nil =>
    obtain ⟨budget, rfl⟩ : ∃ less, budget = less + 1 := ⟨budget - 1, by omega⟩
    have alone : kind.writeOthers [] ++ rest = rest := rfl
    rw [alone, actions, action_content ends.sumEnds, List.mapM_cons]
    cases kind.traverse expression.nameOf expression.operandOf expression.valueOf first with
    | error cause => rfl
    | ok found =>
      show _ = Except.ok (before.append (.joined [kind.update found]), rest)
      rw [Update.append_joined_singleton]
      dsimp only [Except.map, bind, Except.bind]
      split
      · obtain ⟨word, same⟩ := ends _ rfl
        cases same
      · rfl
  | cons next others ih =>
    rw [List.length_cons] at enough
    obtain ⟨budget, rfl⟩ : ∃ less, budget = less + 1 := ⟨budget - 1, by omega⟩
    rw [actions, action_content (sumEnds_others ends kind _), List.mapM_cons]
    cases kind.traverse expression.nameOf expression.operandOf expression.valueOf first with
    | error cause => rfl
    | ok found =>
      have split : kind.writeOthers (next :: others) ++ rest =
          .comma :: (kind.write next ++ (kind.writeOthers others ++ rest)) := by
        simp [Kind.writeOthers]
      rw [split]
      show expression.actions kind.keyword budget (before.append (kind.update found))
        (kind.write next ++ (kind.writeOthers others ++ rest)) = _
      rw [ih next (by omega)]
      cases (next :: others).mapM
        (kind.traverse expression.nameOf expression.operandOf expression.valueOf) with
      | error cause => rfl
      | ok more =>
        refine congrArg (fun update => Except.ok (update, rest)) ?_
        exact Update.append_joined_cons _ _ _

theorem clauseEnds_clauses (clauses : List (Clause Placeholder Placed Placeholder)) :
    ClauseEnds (writeClauses clauses) := by
  cases clauses with
  | nil => exact fun _ first => nomatch first
  | cons clause clauses =>
    rintro token ⟨⟩
    exact ⟨_, rfl⟩

/-- The word of a clause is its kind in capital letters. -/
theorem keyword_upper (kind : Kind) :
    String.ofList (kind.keyword.toList.map Char.toUpper) = kind.keyword := by
  cases kind <;> rfl

/-- **Clauses are read one after another.** -/
theorem clauses_written (clauses : List (Clause Placeholder Placed Placeholder)) {budget : Nat}
    (enough : clauses.length ≤ budget) (before : ResolvedUpdate) :
    expression.clauses budget before (writeClauses clauses) =
      (clauses.mapM expression.clauseOf).map fun found =>
        before.append (.ofClauses found) := by
  induction clauses generalizing budget before with
  | nil =>
    have none : expression.clauses budget before [] = .ok before := by cases budget <;> rfl
    rw [writeClauses, List.flatMap_nil, none]
    exact congrArg Except.ok (Update.append_joined_nil before).symm
  | cons clause clauses ih =>
    obtain ⟨kind, first, others⟩ := clause
    rw [List.length_cons] at enough
    obtain ⟨budget, rfl⟩ : ∃ less, budget = less + 1 := ⟨budget - 1, by omega⟩
    have split : writeClauses (⟨kind, first, others⟩ :: clauses) = .word kind.keyword ::
        (kind.write first ++ (kind.writeOthers others ++ writeClauses clauses)) := by
      simp [writeClauses, Clause.write]
    have room : others.length <
        (kind.write first ++ (kind.writeOthers others ++ writeClauses clauses)).length + 1 := by
      have least : others.length ≤ (kind.writeOthers others).length :=
        length_le_flatMap _ _ others
      rw [List.length_append, List.length_append]
      omega
    rw [split, Expression.clauses, keyword_upper,
      actions_contents (clauseEnds_clauses clauses) kind first others room,
      List.mapM_cons, List.mapM_cons, clauseOf, Clause.traverse]
    cases kind.traverse expression.nameOf expression.operandOf expression.valueOf first with
    | error cause => rfl
    | ok found =>
      cases read : others.mapM
          (kind.traverse expression.nameOf expression.operandOf expression.valueOf) with
      | error cause => rfl
      | ok more =>
        show expression.clauses budget
          (before.append (.joined ((found :: more).map kind.update))) (writeClauses clauses) = _
        rw [ih (by omega)]
        cases clauses.mapM expression.clauseOf with
        | error cause => rfl
        | ok others => exact congrArg Except.ok (Update.append_joined_append _ _ _)

/-- **A text of clauses is read as the update that they make with their placeholders replaced.** -/
theorem update_of_spells {clauses : List (Clause Placeholder Placed Placeholder)}
    (spells : Spells (writeClauses clauses) expression.text.toList) :
    expression.update = (clauses.mapM expression.clauseOf).map .ofClauses := by
  have split : expression.tokens = .ok (writeClauses clauses) := by
    rw [Expression.tokens, tokens_eq_ok_iff.mpr spells]
    rfl
  have enough : clauses.length ≤ (writeClauses clauses).length :=
    length_le_flatMap _ _ clauses
  rw [Expression.update, split]
  show expression.clauses _ {} (writeClauses clauses) = _
  rw [clauses_written clauses enough]
  simp only [Update.empty_append]

end

end Expression

/-! ### The tokens of clauses -/

theorem Term.formed_write (term : Term Placeholder Placed) : AllFormed term.write := by
  cases term with
  | operand single => exact .cons single.formed .nil
  | ifNotExists name fallback =>
    exact formed_called (formed_word (by decide) (by decide))
      (.cons name.name_formed (.cons trivial (.cons fallback.formed .nil)))
  | listAppend first second =>
    exact formed_called (formed_word (by decide) (by decide))
      (.cons first.formed (.cons trivial (.cons second.formed .nil)))

theorem Terms.formed_write (terms : Terms Placeholder Placed) : AllFormed terms.write := by
  refine terms.first.formed_write.append (.flatMap (fun next => ?_) terms.others)
  exact .cons trivial next.2.formed_write

theorem Kind.formed_write (kind : Kind) (action : kind.Content Placeholder Placed Placeholder) :
    AllFormed (kind.write action) := by
  cases kind with
  | set =>
    obtain ⟨name, terms⟩ := action
    exact .cons name.name_formed (.cons trivial terms.formed_write)
  | remove => exact .cons (Placeholder.name_formed action) .nil
  | add | delete =>
    obtain ⟨name, value⟩ := action
    exact .cons name.name_formed (.cons value.value_formed .nil)

/-- **Clauses are written in tokens that a text can have.** -/
theorem formed_writeClauses (clauses : List (Clause Placeholder Placed Placeholder)) :
    AllFormed (writeClauses clauses) := by
  refine .flatMap (fun clause => .cons ?_ ?_) clauses
  · cases clause.kind <;> exact formed_word (by decide) (by decide)
  · refine (clause.kind.formed_write clause.first).append
      (.flatMap (fun action => ?_) clause.others)
    exact .cons trivial (clause.kind.formed_write action)

/-! ### Texts -/

/-- **Conditions and updates are read back from their texts,** whatever white space stands between
the tokens: a condition as the same condition with its placeholders replaced, and clauses as their
actions with the placeholders replaced, sorted by kind and for each kind in the order of the text.
Where a placeholder stands for nothing, the fault of the first such one is the answer. -/
theorem written_readBack (names : Dict String) (values : Dict Json) :
    (∀ condition : Condition Placeholder Placed,
      (∃ text : String, Spells (condition.write 0) text.toList) ∧
        ∀ text : String, Spells (condition.write 0) text.toList →
          (Expression.mk text names values).condition =
            (Expression.mk text names values).conditionOf condition) ∧
      ∀ clauses : List (Clause Placeholder Placed Placeholder),
        (∃ text : String, Spells (writeClauses clauses) text.toList) ∧
          ∀ text : String, Spells (writeClauses clauses) text.toList →
            (Expression.mk text names values).update =
              (clauses.mapM (Expression.mk text names values).clauseOf).map .ofClauses := by
  have spaced {tokens : List Token} (formed : AllFormed tokens) :
      ∃ text : String, Spells tokens text.toList :=
    ⟨String.ofList (spacedTokens tokens), by
      rw [String.toList_ofList]
      exact spells_spaced formed⟩
  refine ⟨fun condition => ⟨spaced (condition.formed_write 0), fun text spells => ?_⟩,
    fun clauses => ⟨spaced (formed_writeClauses clauses), fun text spells => ?_⟩⟩
  · exact Expression.condition_of_spells spells
  · exact Expression.update_of_spells spells

namespace Tricky

/-- A placeholder of one letter. -/
def letter (c : Char) (word : isWordChar c = true) : Placeholder :=
  ⟨[c], List.cons_ne_nil _ _, List.forall_mem_singleton.mpr word⟩

/-- The placeholders. -/
def a : Placeholder := letter 'a' rfl
def b : Placeholder := letter 'b' rfl
def v : Placeholder := letter 'v' rfl

/-- What the placeholders stand for. -/
def names : Dict String := [("#a", "first"), ("#b", "second")]
def one : Json := .object [("N", .string "1")]
def values : Dict Json := [(":v", one)]

/-- A condition with parentheses that it needs and others that it does not. -/
def condition : Condition Placeholder Placed :=
  .and (.not (.or (.between (.name a) (.value v) (.name b)) (.compare (.name a) .ne (.value v))))
    (.and (.present b) (.contains (.name a) (.value v)))

/-- A text of it. -/
def conditionText : String :=
  "NOT(#a BETWEEN:v AND #b OR #a<>:v)AND(attribute_exists(#b) AND contains( #a , :v))"

/-- Clauses of all kinds, two of them of the same. -/
def clauses : List (Clause Placeholder Placed Placeholder) :=
  [⟨.delete, (a, v), []⟩,
    ⟨.set, (a, ⟨.operand (.name a), [(.minus, .operand (.value v)), (.plus, .operand (.name b))]⟩),
      [(b, ⟨.ifNotExists b (.value v), []⟩)]⟩,
    ⟨.add, (b, v), [(a, v)]⟩, ⟨.remove, b, []⟩,
    ⟨.set, (b, ⟨.listAppend (.name a) (.name b), []⟩), []⟩]

/-- A text of them. -/
def clausesText : String :=
  "DELETE #a :v SET #a = #a-:v + #b,#b = if_not_exists(#b, :v)" ++
    " ADD #b :v, #a :v REMOVE #b SET #b = list_append(#a,#b)"

theorem texts_read : Spells (condition.write 0) conditionText.toList ∧
    Spells (writeClauses clauses) clausesText.toList ∧
    (Expression.mk conditionText names values).condition = .ok
      (.and (.not (.or (.between (.attribute "first") (.value one) (.attribute "second"))
          (.compare (.attribute "first") .ne (.value one))))
        (.and (.present "second") (.contains (.attribute "first") (.value one)))) ∧
    (Expression.mk clausesText names values).update = .ok
      { set := [("first", .plus (.minus (.operand (.attribute "first")) (.operand (.value one)))
            (.operand (.attribute "second"))),
          ("second", .ifNotExists "second" (.value one)),
          ("second", .listAppend (.attribute "first") (.attribute "second"))]
        remove := ["second"]
        add := [("second", one), ("first", one)]
        delete := [("first", one)] } := by
  have first : Spells (condition.write 0) conditionText.toList :=
    tokens_eq_ok_iff.mp (by decide +kernel)
  have second : Spells (writeClauses clauses) clausesText.toList :=
    tokens_eq_ok_iff.mp (by decide +kernel)
  exact ⟨first, second, ((written_readBack names values).1 condition).2 conditionText first,
    ((written_readBack names values).2 clauses).2 clausesText second⟩

end Tricky

end FieldResolver.Table

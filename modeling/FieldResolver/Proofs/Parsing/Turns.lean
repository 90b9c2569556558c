/-
**The loops of the parser, turn by turn, and its end.**

A parser that goes round — through the nodes of a block, the operators of a level, the items of a
list, the entries of a map, the arguments of a call, the segments of a reference, the branches of a
conditional — is written here as what one turn of it does. A turn that goes on has taken something
from the text, so there are no more turns than characters; the one parse of something else than a
rest of the text is that of the inside of a string, which is shorter than the text.

* `Turn`, `Turn.go`, `Loops`: how a turn ends, what the loop makes of it, and a loop whose turns
  take something;
* `block_loops`, `operands_loops` and others: the loops of the parser;
* `Course`, `Loops.terminates`: several turns, which are no more than the characters that they take;
* `loops_terminate`: all loops of the parser;
* `primary_string`: what a string in double quotes comes to;
* `SyntaxError.PointsInto`: an error that points at a character of a text or behind its last one;
* `parse_answers`: every template has its nodes or such an error.
-/

import FieldResolver.Proofs.Parsing.Budget
import Mathlib.Data.List.Induction

namespace FieldResolver.Template

open FieldResolver.Fallible FieldResolver.Template.Parser

namespace Parser

/-! ### Turns -/

/-- How a turn of a loop ends: with what to go on with, or with what the loop returns. -/
inductive Turn (σ ρ : Type) where
  | again (state : σ) (rest : List Char)
  | done (found : ρ) (rest : List Char)

/-- What a loop makes of the end of a turn. -/
def Turn.go {σ ρ : Type} (loop : σ → List Char → Except SyntaxError (ρ × List Char)) :
    Turn σ ρ → Except SyntaxError (ρ × List Char)
  | .again state rest => loop state rest
  | .done found rest => .ok (found, rest)

/-- Whether a parser is a loop of such turns, and a turn takes something from the text if another
one follows it. -/
structure Loops {σ ρ : Type} (loop : Nat → σ → List Char → Except SyntaxError (ρ × List Char))
    (turn : Nat → σ → List Char → Except SyntaxError (Turn σ ρ)) : Prop where
  turns (budget : Nat) (state : σ) (text : List Char) :
    loop (budget + 1) state text = turn budget state text >>= Turn.go (loop budget)
  takes {budget : Nat} {state next : σ} {text rest : List Char}
    (again : turn budget state text = .ok (.again next rest)) : Leaves text rest

/-- Turns one after the other, with the budget falling by one each time. -/
inductive Course {σ ρ : Type} (turn : Nat → σ → List Char → Except SyntaxError (Turn σ ρ)) :
    Nat → Nat → σ → List Char → σ → List Char → Prop
  | start (budget : Nat) (state : σ) (text : List Char) : Course turn 0 budget state text state text
  | next {count budget : Nat} {state middle last : σ} {text rest behind : List Char}
      (again : turn budget state text = .ok (.again middle rest))
      (others : Course turn count budget middle rest last behind) :
      Course turn (count + 1) (budget + 1) state text last behind

section

variable {σ ρ : Type} {loop : Nat → σ → List Char → Except SyntaxError (ρ × List Char)}
  {turn : Nat → σ → List Char → Except SyntaxError (Turn σ ρ)}

/-- Whether a parser is a loop that makes no more turns than a text has characters. -/
structure Terminates (loop : Nat → σ → List Char → Except SyntaxError (ρ × List Char))
    (turn : Nat → σ → List Char → Except SyntaxError (Turn σ ρ)) : Prop extends
    Loops loop turn where
  turns_le {count budget : Nat} {state last : σ} {text rest : List Char}
    (course : Course turn count budget state text last rest) : count + rest.length ≤ text.length

/-- **There are no more turns than characters.** -/
theorem Loops.terminates (loops : Loops loop turn) : Terminates loop turn where
  toLoops := loops
  turns_le course := by
    induction course with
    | start => omega
    | next again _ ih =>
      have := (loops.takes again).length_lt
      omega

end

/-! ### The loops of expressions -/

/-- An operator of a level with its right operand, or the end of the operators. -/
def operandsTurn (level budget : Nat) (left : Expr) (text : List Char) :
    Except SyntaxError (Turn Expr Expr) :=
  match operator? level (skipBlanks text) with
  | none => .ok (.done left (skipBlanks text))
  | some (op, rest) =>
    expr budget (level + 1) (skipBlanks rest) >>= fun right =>
      .ok (.again (.binary op left right.1) right.2)

theorem operands_loops (level : Nat) :
    Loops (fun budget => operands budget level) (operandsTurn level) where
  turns budget left text := by
    fun_cases operandsTurn level budget left text with
    | case1 ended =>
      simp only [operands, ended]
      rfl
    | case2 op rest found =>
      simp only [operands, found, bind_assoc]
      rfl
  takes {budget left next text rest} again := by
    unfold operandsTurn at again
    split at again
    · cases again
    · rename_i op behind found
      obtain ⟨right, done, same⟩ := bind_ok again
      cases same
      obtain ⟨_, member, _⟩ := operator?_some found
      have taken := (operator?_leaves found).of_suffix (skipBlanks_suffix behind)
      exact .behind (skipBlanks_suffix text)
        (taken.trans (expr_leaves (succ_le_levels_of_mem member) done))

/-- A comma with the item behind it, or the closing bracket of a list. -/
def itemsTurn (budget : Nat) (read : List Expr) (text : List Char) :
    Except SyntaxError (Turn (List Expr) (List Expr)) :=
  match skipBlanks text with
  | ',' :: rest =>
    expr budget 0 (skipBlanks rest) >>= fun item => .ok (.again (item.1 :: read) item.2)
  | ']' :: rest => .ok (.done read.reverse rest)
  | text => fail .listSeparator text

theorem items_loops : Loops items itemsTurn where
  turns budget read text := by
    fun_cases itemsTurn budget read text with
    | case1 rest comma =>
      simp only [items, comma, bind_assoc]
      rfl
    | case2 rest shut =>
      simp only [items, shut]
      rfl
    | case3 =>
      simp only [items, *]
      rfl
  takes {budget read next text rest} again := by
    unfold itemsTurn at again
    split at again
    · rename_i comma
      obtain ⟨item, done, same⟩ := bind_ok again
      cases same
      exact (skipBlanks_leaves comma).trans (expr_leaves_blanks done)
    · cases again
    · cases again

/-- An entry of a map with what follows it: a comma or the closing brace. -/
def entriesTurn (budget : Nat) (read : List Entry) (text : List Char) :
    Except SyntaxError (Turn (List Entry) (List Entry)) :=
  expr budget 0 (skipBlanks text) >>= fun key =>
    expect ':' (skipBlanks key.2) >>= fun behind =>
      expr budget 0 (skipBlanks behind) >>= fun value =>
        match skipBlanks value.2 with
        | ',' :: rest => .ok (.again (.mk key.1 value.1 :: read) rest)
        | '\x7d' :: rest => .ok (.done (Entry.mk key.1 value.1 :: read).reverse rest)
        | text => fail .mapSeparator text

theorem entries_loops : Loops entries entriesTurn where
  turns budget read text := by
    unfold entries entriesTurn
    simp only [bind_assoc]
    refine bind_congr fun key => bind_congr fun behind => bind_congr fun value => ?_
    -- both sides look at the same character
    split
    all_goals simp [*, Turn.go, bind, Except.bind, fail]
  takes {budget read next text rest} again := by
    obtain ⟨key, first, again⟩ := bind_ok again
    obtain ⟨behind, shut, again⟩ := bind_ok again
    obtain ⟨value, second, again⟩ := bind_ok again
    split at again
    · rename_i comma
      cases again
      exact ((expr_leaves_blanks first).trans (expect_leaves shut)).trans
        ((expr_leaves_blanks second).trans (skipBlanks_leaves comma))
    · cases again
    · cases again

/-- An argument of a call with what follows it: a comma or the closing parenthesis. -/
def argumentsTurn (budget : Nat) (read : List Expr) (text : List Char) :
    Except SyntaxError (Turn (List Expr) (List Expr)) :=
  expr budget 0 (skipBlanks text) >>= fun argument =>
    match skipBlanks argument.2 with
    | ',' :: rest => .ok (.again (argument.1 :: read) rest)
    | ')' :: rest => .ok (.done (argument.1 :: read).reverse rest)
    | text => fail .argumentSeparator text

theorem moreArguments_loops : Loops moreArguments argumentsTurn where
  turns budget read text := by
    unfold moreArguments argumentsTurn
    simp only [bind_assoc]
    refine bind_congr fun argument => ?_
    split
    all_goals simp [*, Turn.go, bind, Except.bind, fail]
  takes {budget read next text rest} again := by
    obtain ⟨argument, done, again⟩ := bind_ok again
    split at again
    · rename_i comma
      cases again
      exact (expr_leaves_blanks done).trans (skipBlanks_leaves comma)
    · cases again
    · cases again

/-- A segment of a reference, or the end of its segments. -/
def segmentsTurn (budget : Nat) (read : List Segment) (text : List Char) :
    Except SyntaxError (Turn (List Segment) (List Segment)) :=
  match text with
  | '.' :: rest =>
    if startsName rest then
      match (name rest).2 with
      | '(' :: inside => arguments budget inside >>= fun given =>
          .ok (.again (.method (name rest).1 given.1 :: read) given.2)
      | behind => .ok (.again (.property (name rest).1 :: read) behind)
    else .ok (.done read.reverse text)
  | '[' :: rest =>
    expr budget 0 (skipBlanks rest) >>= fun key =>
      expect ']' (skipBlanks key.2) >>= fun behind => .ok (.again (.index key.1 :: read) behind)
  | _ => .ok (.done read.reverse text)

theorem segments_loops : Loops segments segmentsTurn where
  turns budget read text := by
    fun_cases segmentsTurn budget read text with
    | case1 rest starts inside opened =>
      simp only [segments, starts, opened, bind_assoc]
      rfl
    | case2 rest starts =>
      simp only [segments, *]
      rfl
    | case3 rest ends =>
      simp only [segments, ends]
      rfl
    | case4 rest =>
      simp only [segments, bind_assoc]
      rfl
    | case5 =>
      simp only [segments, *]
      rfl
  takes {budget read next text rest} again := by
    unfold segmentsTurn at again
    split at again
    · rename_i behind
      split at again
      · rename_i starts
        have named := (Leaves.cons '.' behind).trans (name_leaves starts)
        split at again
        · rename_i inside opened
          obtain ⟨given, done, same⟩ := bind_ok again
          cases same
          exact (named.trans (opened ▸ Leaves.cons '(' inside)).trans (arguments_leaves done)
        · cases again
          exact named
      · cases again
    · rename_i behind
      obtain ⟨key, done, again⟩ := bind_ok again
      obtain ⟨others, shut, same⟩ := bind_ok again
      cases same
      exact ((Leaves.cons '[' behind).trans (expr_leaves_blanks done)).trans (expect_leaves shut)
    · cases again

/-! ### The loops of blocks -/

/-- A branch of a conditional with the directive that ends it, and the last branch behind an
`#else`. -/
def branchesTurn (budget : Nat) (read : List Branch) (text : List Char) :
    Except SyntaxError (Turn (List Branch) Node) :=
  condition budget text >>= fun test =>
    block budget .branch test.2.length [] [] test.2 >>= fun body =>
      match body.1.2 with
      | .elseif => .ok (.again (.mk test.1 body.1.1 :: read) body.2)
      | .else =>
        block budget .last body.2.length [] [] body.2 >>= fun otherwise =>
          .ok (.done (.cond (Branch.mk test.1 body.1.1 :: read).reverse otherwise.1.1) otherwise.2)
      | _ => .ok (.done (.cond (Branch.mk test.1 body.1.1 :: read).reverse []) body.2)

theorem branches_loops : Loops branches branchesTurn where
  turns budget read text := by
    unfold branches branchesTurn
    simp only [bind_assoc]
    refine bind_congr fun test => bind_congr fun body => ?_
    obtain ⟨⟨nodes, ending⟩, behind⟩ := body
    cases ending with
    | «else» =>
      simp only [bind_assoc]
      rfl
    | _ => rfl
  takes {budget read next text rest} again := by
    obtain ⟨test, first, again⟩ := bind_ok again
    obtain ⟨⟨⟨nodes, ending⟩, behind⟩, second, again⟩ := bind_ok again
    cases ending with
    | «elseif» =>
      cases again
      exact (condition_leaves first).of_suffix (block_suffix second)
    | «else» =>
      obtain ⟨_, _, again⟩ := bind_ok again
      cases again
    | _ => cases again

/-- What a directive adds to a block, or how it ends the block. -/
def directiveTurn (scope : Scope) (budget : Nat) (nodes : List Node) (directive : Directive)
    (text rest : List Char) :
    Except SyntaxError (Turn (List Node × List Char) (List Node × Ending)) :=
  match directive with
  | .set => assignment budget rest >>= fun found => .ok (.again (found.1 :: nodes, []) found.2)
  | .if => branches budget [] rest >>= fun found => .ok (.again (found.1 :: nodes, []) found.2)
  | .foreach => loop budget rest >>= fun found => .ok (.again (found.1 :: nodes, []) found.2)
  | .break => .ok (.again (.breakLoop :: nodes, []) rest)
  | .stop => .ok (.again (.stop :: nodes, []) rest)
  | .return => returned budget rest >>= fun found => .ok (.again (found.1 :: nodes, []) found.2)
  | .console =>
    expect '(' (skipBlanks rest) >>= fun inside =>
      arguments budget inside >>= fun given => .ok (.again (.console given.1 :: nodes, []) given.2)
  | closing =>
    match scope.ending? closing with
    | some ending => .ok (.done (nodes.reverse, ending) rest)
    | none => fail (.unexpectedDirective closing) text

/-- What the next characters of a block add to its nodes and to the text behind them, or how it
ends. -/
def blockTurn (scope : Scope) (start budget : Nat) (read : List Node × List Char)
    (text : List Char) : Except SyntaxError (Turn (List Node × List Char) (List Node × Ending)) :=
  match text with
  | [] =>
    if scope = .template then .ok (.done ((flush read.1 read.2).reverse, .endOfText) [])
    else .error ⟨.missingEnd, start⟩
  | '\\' :: '$' :: rest => .ok (.again (read.1, '$' :: read.2) rest)
  | '\\' :: '#' :: rest => .ok (.again (read.1, '#' :: read.2) rest)
  | '#' :: '#' :: rest => .ok (.again read (skipLine rest))
  | '#' :: '*' :: rest =>
    match splitAt? ['*', '#'] rest with
    | some (_, rest) => .ok (.again read rest)
    | none => fail .unterminatedComment text
  | '#' :: '[' :: '[' :: rest =>
    match splitAt? [']', ']', '#'] rest with
    | some (verbatim, rest) => .ok (.again (read.1, verbatim.reverse ++ read.2) rest)
    | none => fail .unterminatedVerbatim text
  | '#' :: rest =>
    match directive? ('#' :: rest) with
    | none => .ok (.again (read.1, '#' :: read.2) rest)
    | some (directive, behind) =>
      directiveTurn scope budget (flush read.1 read.2) directive text behind
  | '$' :: rest =>
    reference? budget ('$' :: rest) >>= fun found =>
      match found with
      | some ((root, path), behind) =>
        .ok (.again (.reference root path :: flush read.1 read.2, []) behind)
      | none => .ok (.again (read.1, '$' :: read.2) rest)
  | c :: rest => .ok (.again (read.1, c :: read.2) rest)

theorem directiveTurn_suffix {scope : Scope} {budget : Nat} {nodes : List Node}
    {directive : Directive} {text rest behind : List Char} {next : List Node × List Char}
    (again : directiveTurn scope budget nodes directive text rest = .ok (.again next behind)) :
    behind <:+ rest := by
  cases directive with
  | set =>
    obtain ⟨⟨node, left⟩, done, same⟩ := bind_ok again
    cases same
    exact assignment_suffix done
  | «if» =>
    obtain ⟨⟨node, left⟩, done, same⟩ := bind_ok again
    cases same
    exact branches_suffix done
  | «foreach» =>
    obtain ⟨⟨node, left⟩, done, same⟩ := bind_ok again
    cases same
    exact loop_suffix done
  | «return» =>
    obtain ⟨⟨node, left⟩, done, same⟩ := bind_ok again
    cases same
    exact returned_suffix done
  | «break» | stop =>
    cases again
    exact List.suffix_rfl
  | console =>
    obtain ⟨inside, opened, again⟩ := bind_ok again
    obtain ⟨given, done, same⟩ := bind_ok again
    cases same
    exact ((expect_leaves opened).trans (arguments_leaves done)).suffix
  | «elseif» | «else» | «end» =>
    simp only [directiveTurn] at again
    split at again <;> cases again

theorem block_loops (scope : Scope) (start : Nat) :
    Loops (fun budget read => block budget scope start read.1 read.2) (blockTurn scope start) where
  turns budget read text := by
    fun_cases blockTurn scope start budget read text
    case case11 rest _ _ _ directive behind found =>
      simp only [block, *]
      cases directive with
      | «break» | stop => rfl
      | «elseif» | «else» | «end» =>
        simp only [directiveTurn]
        generalize scope.ending? _ = ending
        cases ending <;> rfl
      | _ =>
        simp only [directiveTurn, bind_assoc]
        rfl
    case case12 rest =>
      simp only [block, bind_assoc]
      refine bind_congr fun found => ?_
      split <;> rfl
    all_goals
      simp only [block, *]
      rfl
  takes {budget read next text rest} again := by
    unfold blockTurn at again
    split at again
    · split at again <;> cases again
    · cases again
      exact (Leaves.cons _ _).trans (.cons _ _)
    · cases again
      exact (Leaves.cons _ _).trans (.cons _ _)
    · cases again
      exact (Leaves.cons _ _).of_suffix ((skipLine_suffix _).trans (List.suffix_cons _ _))
    · split at again
      · rename_i found
        cases again
        exact (Leaves.cons _ _).of_suffix ((splitAt?_suffix found).trans (List.suffix_cons _ _))
      · cases again
    · split at again
      · rename_i found
        cases again
        exact (Leaves.cons _ _).trans ((Leaves.cons _ _).of_suffix
          ((splitAt?_suffix found).trans (List.suffix_cons _ _)))
      · cases again
    · split at again
      · cases again
        exact .cons _ _
      · rename_i found
        exact (directive?_leaves found).of_suffix (directiveTurn_suffix again)
    · obtain ⟨found, done, again⟩ := bind_ok again
      split at again
      · cases again
        exact reference?_leaves done
      · cases again
        exact .cons _ _
    · cases again
      exact .cons _ _

/-- The loops of the parser, each of which makes no more turns than a text has characters. -/
structure LoopsTerminate : Prop where
  block (scope : Scope) (start : Nat) :
    Terminates (fun budget read => Parser.block budget scope start read.1 read.2)
      (blockTurn scope start)
  operands (level : Nat) :
    Terminates (fun budget => Parser.operands budget level) (operandsTurn level)
  moreArguments : Terminates Parser.moreArguments argumentsTurn
  items : Terminates Parser.items itemsTurn
  entries : Terminates Parser.entries entriesTurn
  segments : Terminates Parser.segments segmentsTurn
  branches : Terminates Parser.branches branchesTurn

theorem loops_terminate : LoopsTerminate where
  block scope start := (block_loops scope start).terminates
  operands level := (operands_loops level).terminates
  moreArguments := moreArguments_loops.terminates
  items := items_loops.terminates
  entries := entries_loops.terminates
  segments := segments_loops.terminates
  branches := branches_loops.terminates

/-! ### Strings in double quotes -/

/-- What a string in double quotes comes to, with the answer of the parse of its inside. -/
def ofInside (text behind : List Char) :
    Except SyntaxError ((List Node × Ending) × List Char) → Except SyntaxError (Expr × List Char)
  | .ok inside => .ok (interpolation inside.1.1, behind)
  | .error error => fail (.inString error.cause) text

/-- **The inside of a string is parsed like a template.** -/
theorem primary_string (budget : Nat) (text : List Char) :
    primary (budget + 1) ('"' :: text) =
      match quoted? '"' [] text with
      | some (content, behind) =>
        if content.any (fun c => c == '$' || c == '#') then
          ofInside ('"' :: text) behind (block budget .template content.length [] [] content)
        else .ok (.string (String.ofList content), behind)
      | none => fail .unterminatedString ('"' :: text) := by
  rw [primary]
  cases quoted? '"' [] text with
  | none => rfl
  | some read =>
    obtain ⟨content, behind⟩ := read
    dsimp only
    split
    · cases block budget .template content.length [] [] content <;> rfl
    · rfl

end Parser

/-! ### Places -/

/-- Whether a place is the one behind a text that starts at the first line and column: its line is
one more than the line breaks of the text, and its column one more than the characters behind the
last of them. -/
def Position.Behind (place : Position) (front : List Char) : Prop :=
  place.line = 1 + front.count '\n' ∧
    place.column = 1 + (front.reverse.takeWhile (· != '\n')).length

theorem Position.behind_after (front : List Char) : (after ⟨1, 1⟩ front).Behind front := by
  induction front using List.reverseRecOn with
  | nil => exact ⟨rfl, rfl⟩
  | append_singleton front c ih =>
    obtain ⟨line, column⟩ := ih
    have step : after ⟨1, 1⟩ (front ++ [c]) = after (after ⟨1, 1⟩ front) [c] :=
      List.foldl_append
    rw [step]
    unfold after at line column ⊢
    simp only [List.foldl_cons, List.foldl_nil]
    split
    · rename_i lineBreak
      constructor
      · simp only [line, lineBreak, List.count_append, List.count_singleton_self]
        omega
      · simp [lineBreak]
    · rename_i inside
      constructor
      · simp [line, inside]
      · simp [column, inside, Nat.add_comm]

/-- Whether an error points at a character of a text or just behind its last one; at an opening
quote if it is one inside of a string. -/
def SyntaxError.PointsInto (error : SyntaxError) (text : List Char) : Prop :=
  ∃ front behind, text = front ++ behind ∧
    (Position.ofRemaining text error.remaining).Behind front ∧
    ∀ cause, error.cause = .inString cause → behind.head? = some '"'

theorem SyntaxError.In.pointsInto {error : SyntaxError} {text : List Char}
    (inside : error.In text) : error.PointsInto text := by
  obtain ⟨behind, ⟨front, same⟩, remaining, quote⟩ := inside
  refine ⟨front, behind, same.symm, ?_, quote⟩
  unfold Position.ofRemaining
  rw [remaining, ← same, List.length_append, Nat.add_sub_cancel, List.take_left]
  exact Position.behind_after front

/-- **Every template has its nodes or an error that points into it.** The budget, which stands for
nothing in the text, is not what it ends with, and a greater one changes nothing; every loop returns
or takes something in each turn, and the inside of a string is shorter than what is left of the
text. -/
theorem parse_answers (text : List Char) :
    ((∃ nodes, parse text = .ok nodes) ∨
      ∃ error, parse text = .error error ∧ error.cause.Genuine ∧ error.PointsInto text) ∧
    (∀ budget, budgetFor text.length ≤ budget →
      block budget .template text.length [] [] text =
        block (budgetFor text.length) .template text.length [] [] text) ∧
    LoopsTerminate ∧
    (∀ budget rest, primary (budget + 1) ('"' :: rest) =
      match quoted? '"' [] rest with
      | some (content, behind) =>
        if content.any (fun c => c == '$' || c == '#') then
          ofInside ('"' :: rest) behind (block budget .template content.length [] [] content)
        else .ok (.string (String.ofList content), behind)
      | none => fail .unterminatedString ('"' :: rest)) ∧
    ∀ rest content behind, quoted? '"' [] rest = some (content, behind) →
      content.length < rest.length := by
  refine ⟨?_, fun _ => block_eq_of_le text, loops_terminate, primary_string, ?_⟩
  · cases answer : parse text with
    | ok nodes => exact .inl ⟨nodes, rfl⟩
    | error error =>
      obtain ⟨inside, genuine⟩ := sited_parse text error answer
      exact .inr ⟨error, rfl, genuine trivial, inside.pointsInto⟩
  · intro rest content behind found
    have := length_quoted? found
    omega

/-- An error in a string in a string is at the quote of the outer one. -/
example :
    let text := "#set($x =\n  \"$y.m(\"\"z#if(1)\"\")\")".toList
    parse text = .error ⟨.inString (.inString .missingEnd), 20⟩ ∧
      Position.ofRemaining text 20 = ⟨2, 3⟩ := by
  cbv

end FieldResolver.Template

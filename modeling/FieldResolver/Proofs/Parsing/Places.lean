/-
**Where errors are, and that the budget is enough.**

An error keeps how many characters follow its place. They are a rest of the text that was parsed,
so the place is one of its characters or its end; for an error inside of a string it is the opening
quote of the outermost string, since the inner parse hands on its cause alone.

No error is one of the budget if the budget is sixteen times the length of the text and a little
more: between two calls on the same text at most twelve others lie, all other calls are on shorter
ones.

* `SyntaxError.Cause.Genuine`, `SyntaxError.In`, `Sited`: a cause that is no lack of budget; an
  error at a place of a text; what holds of the errors of a parser;
* `expr_sited`, `block_sited`: the errors of expressions and of blocks;
* `sited_parse`: the errors of templates.
-/

import FieldResolver.Proofs.Parsing.Consumption

namespace FieldResolver.Template

/-- Whether a cause is one of the text and not the lack of budget. -/
def SyntaxError.Cause.Genuine : SyntaxError.Cause → Prop
  | .budget => False
  | .inString cause => cause.Genuine
  | _ => True

/-- Whether an error is at a place of a text; if it is inside of a string, at a double quote. -/
def SyntaxError.In (error : SyntaxError) (text : List Char) : Prop :=
  ∃ behind, behind <:+ text ∧ error.remaining = behind.length ∧
    ∀ cause, error.cause = .inString cause → behind.head? = some '"'

namespace Parser

/-- Whether every error is at a place of a text and, with a budget that is enough, no lack of it. -/
def Sited {α : Type} (text : List Char) (enough : Prop) (answer : Except SyntaxError α) : Prop :=
  ∀ error, answer = .error error → error.In text ∧ (enough → error.cause.Genuine)

section

variable {α β : Type} {text rest : List Char} {enough : Prop}

theorem Sited.ok (value : α) : Sited text enough (.ok value) := fun _ failed => nomatch failed

/-- An error at the first character of a rest of the text. -/
theorem Sited.fail {cause : SyntaxError.Cause} (less : rest <:+ text) (genuine : cause.Genuine)
    (outside : ∀ inner, cause ≠ .inString inner) :
    Sited text enough (Parser.fail cause rest : Except SyntaxError α) := by
  rintro error ⟨⟩
  exact ⟨⟨rest, less, rfl, fun inner same => absurd same (outside inner)⟩, fun _ => genuine⟩

/-- A parser without any budget. -/
theorem Sited.spent (short : ¬ enough) :
    Sited text enough (Parser.fail .budget text : Except SyntaxError α) := by
  rintro error ⟨⟩
  exact ⟨⟨text, List.suffix_rfl, rfl, fun _ same => nomatch same⟩, fun has => absurd has short⟩

/-- The errors of a parser of a rest of the text, which needs less. -/
theorem Sited.within {answer : Except SyntaxError α} {less : Prop} (sited : Sited rest less answer)
    (suffix : rest <:+ text) (weaker : enough → less) : Sited text enough answer := by
  intro error failed
  obtain ⟨⟨behind, inside, place, quote⟩, genuine⟩ := sited error failed
  exact ⟨⟨behind, inside.trans suffix, place, quote⟩, fun has => genuine (weaker has)⟩

theorem Sited.bind {first : Except SyntaxError α} {next : α → Except SyntaxError β}
    (sited : Sited text enough first)
    (others : ∀ value, first = .ok value → Sited text enough (next value)) :
    Sited text enough (first >>= next) := by
  cases first with
  | error cause =>
    rintro error ⟨⟩
    exact sited cause rfl
  | ok value => exact others value rfl

theorem expect_sited (wanted : Char) (less : rest <:+ text) :
    Sited text enough (expect wanted rest) := by
  cases rest with
  | nil => exact .fail less trivial (by rintro _ ⟨⟩)
  | cons c rest =>
    rw [expect]
    split
    · exact .ok _
    · exact .fail less trivial (by rintro _ ⟨⟩)

theorem number_sited (text : List Char) : Sited text enough (number text) := by
  have integer : Sited text enough
      (if Decimal.natOfDigits (text.takeWhile Decimal.isDigit) 0 < 0x8000000000000000 then
        .ok (Expr.int (Decimal.natOfDigits (text.takeWhile Decimal.isDigit) 0),
          text.dropWhile Decimal.isDigit)
      else Parser.fail (.integerRange (String.ofList (text.takeWhile Decimal.isDigit))) text) := by
    split
    · exact .ok _
    · exact .fail List.suffix_rfl trivial (by rintro _ ⟨⟩)
  unfold number
  simp only
  split
  · split
    · exact .ok _
    · exact integer
  · exact integer

theorem constant_sited (text : List Char) : Sited text enough (constant text) := by
  unfold constant
  split
  · exact .ok _
  · split
    · exact .ok _
    · split
      · exact .ok _
      · split
        · exact .fail List.suffix_rfl trivial (by rintro _ ⟨⟩)
        · exact .fail List.suffix_rfl trivial (by rintro _ ⟨⟩)

end

/-- Only the levels of binding have operators. -/
theorem succ_le_levels_of_operator? {level : Nat} {text rest : List Char} {op : BinaryOp}
    (found : operator? level text = some (op, rest)) : level + 1 ≤ levels := by
  obtain ⟨spelling, member, _⟩ := operator?_some found
  exact succ_le_levels_of_mem member

/-! ### All parsers at once -/

mutual

theorem expr_sited : (budget level : Nat) → (text : List Char) → level ≤ levels →
    Sited text (16 * text.length + 10 ≤ budget + level) (expr budget level text)
  | 0, level, text, bound => .spent (by unfold levels at bound; omega)
  | budget + 1, level, text, bound => by
    have six : levels = 6 := rfl
    unfold expr
    split
    · rename_i loose
      refine .bind ((expr_sited budget (level + 1) text loose).within List.suffix_rfl (by omega)) ?_
      rintro ⟨left, rest⟩ done
      have less := expr_leaves loose done
      have := less.length_lt
      exact (operands_sited budget level left rest).within less.suffix (by omega)
    · exact (unary_sited budget text).within List.suffix_rfl (by omega)

theorem operands_sited : (budget level : Nat) → (left : Expr) → (text : List Char) →
    Sited text (16 * text.length + 1 ≤ budget) (operands budget level left text)
  | 0, _, _, _ => .spent (by omega)
  | budget + 1, level, left, text => by
    unfold operands
    simp only
    split
    · exact .ok _
    · rename_i op behind found
      have taken : Leaves text behind := .behind (skipBlanks_suffix text) (operator?_leaves found)
      have inside := succ_le_levels_of_operator? found
      have first := taken.of_suffix (skipBlanks_suffix behind)
      have := first.length_lt
      refine .bind ((expr_sited budget (level + 1) _ inside).within first.suffix (by omega)) ?_
      rintro ⟨right, rest⟩ done
      have less := first.trans (expr_leaves inside done)
      have := less.length_lt
      exact (operands_sited budget level _ rest).within less.suffix (by omega)

theorem unary_sited : (budget : Nat) → (text : List Char) →
    Sited text (16 * text.length + 3 ≤ budget) (unary budget text)
  | 0, text => .spent (by omega)
  | budget + 1, text => by
    have shorter := (skipBlanks_suffix text).length_le
    unfold unary
    split
    · rename_i behind same
      split
      · rw [← same]
        exact (primary_sited budget _).within (skipBlanks_suffix text) (by omega)
      · have less := skipBlanks_leaves same
        have := less.length_lt
        exact .bind ((unary_sited budget behind).within less.suffix (by omega)) fun _ _ => .ok _
    · rename_i behind same
      have less := skipBlanks_leaves same
      have := less.length_lt
      exact .bind ((unary_sited budget behind).within less.suffix (by omega)) fun _ _ => .ok _
    · split
      · rename_i behind found
        have less : Leaves text behind := .behind (skipBlanks_suffix text)
          ⟨_, List.cons_ne_nil _ _, eatWord?_some found⟩
        have := less.length_lt
        exact .bind ((unary_sited budget behind).within less.suffix (by omega)) fun _ _ => .ok _
      · exact (primary_sited budget _).within (skipBlanks_suffix text) (by omega)

theorem primary_sited : (budget : Nat) → (text : List Char) →
    Sited text (16 * text.length + 2 ≤ budget) (primary budget text)
  | 0, text => .spent (by omega)
  | budget + 1, text => by
    unfold primary
    split
    · exact .fail List.suffix_rfl trivial (by rintro _ ⟨⟩)
    · rename_i c behind
      have taken := Leaves.cons c behind
      have shorter := taken.length_lt
      split
      · -- a reference
        refine .bind ((reference?_sited budget _).within List.suffix_rfl (by omega)) ?_
        rintro found done
        split
        · exact .ok _
        · exact .fail List.suffix_rfl trivial (by rintro _ ⟨⟩)
      · -- a string in single quotes
        split
        · exact .ok _
        · exact .fail List.suffix_rfl trivial (by rintro _ ⟨⟩)
      · -- a string in double quotes
        split
        · rename_i content rest found
          have inner := length_quoted? found
          split
          · split
            · exact .ok _
            · rename_i error failed
              rintro _ ⟨⟩
              refine ⟨⟨_, List.suffix_rfl, rfl, fun _ _ => rfl⟩, fun has => ?_⟩
              exact (block_sited budget .template [] [] List.suffix_rfl error failed).2 (by omega)
          · exact .ok _
        · exact .fail List.suffix_rfl trivial (by rintro _ ⟨⟩)
      · exact (listOrRange_sited budget behind).within taken.suffix (by omega)
      · -- a map
        have less := taken.of_suffix (skipBlanks_suffix behind)
        have := less.length_lt
        simp only
        split
        · exact .ok _
        · exact .bind ((entries_sited budget [] _).within less.suffix (by omega)) fun _ _ => .ok _
      · -- an expression in parentheses
        have less := taken.of_suffix (skipBlanks_suffix behind)
        have := less.length_lt
        refine .bind ((expr_sited budget 0 _ (Nat.zero_le _)).within less.suffix (by omega)) ?_
        rintro ⟨inner, rest⟩ done
        have left := (less.trans (expr_leaves (Nat.zero_le _) done)).suffix
        exact .bind (expect_sited _ ((skipBlanks_suffix rest).trans left)) fun _ _ => .ok _
      · split
        · exact number_sited _
        · exact constant_sited _

theorem listOrRange_sited : (budget : Nat) → (text : List Char) →
    Sited text (16 * text.length + 11 ≤ budget) (listOrRange budget text)
  | 0, text => .spent (by omega)
  | budget + 1, text => by
    have shorter := (skipBlanks_suffix text).length_le
    unfold listOrRange
    split
    · exact .ok _
    · refine .bind ((expr_sited budget 0 _ (Nat.zero_le _)).within (skipBlanks_suffix text)
        (by omega)) ?_
      rintro ⟨first, rest⟩ done
      have less := expr_leaves_blanks done
      have := less.length_lt
      simp only
      split
      · rename_i behind dots
        have more := less.trans (Leaves.behind (skipBlanks_suffix rest)
          ⟨_, List.cons_ne_nil _ _, dropFront?_some dots⟩)
        have next := more.of_suffix (skipBlanks_suffix behind)
        have := next.length_lt
        refine .bind ((expr_sited budget 0 _ (Nat.zero_le _)).within next.suffix (by omega)) ?_
        rintro ⟨last, rest⟩ done
        have left := (more.trans (expr_leaves_blanks done)).suffix
        exact .bind (expect_sited _ ((skipBlanks_suffix rest).trans left)) fun _ _ => .ok _
      · exact .bind ((items_sited budget [first] rest).within less.suffix (by omega))
          fun _ _ => .ok _

theorem items_sited : (budget : Nat) → (read : List Expr) → (text : List Char) →
    Sited text (16 * text.length + 1 ≤ budget) (items budget read text)
  | 0, _, text => .spent (by omega)
  | budget + 1, read, text => by
    unfold items
    split
    · rename_i behind same
      have taken := skipBlanks_leaves same
      have next := taken.of_suffix (skipBlanks_suffix behind)
      have := next.length_lt
      refine .bind ((expr_sited budget 0 _ (Nat.zero_le _)).within next.suffix (by omega)) ?_
      rintro ⟨item, rest⟩ done
      have less := taken.trans (expr_leaves_blanks done)
      have := less.length_lt
      exact (items_sited budget _ rest).within less.suffix (by omega)
    · exact .ok _
    · exact .fail (skipBlanks_suffix text) trivial (by rintro _ ⟨⟩)

theorem entries_sited : (budget : Nat) → (read : List Entry) → (text : List Char) →
    Sited text (16 * text.length + 11 ≤ budget) (entries budget read text)
  | 0, _, text => .spent (by omega)
  | budget + 1, read, text => by
    have shorter := (skipBlanks_suffix text).length_le
    unfold entries
    refine .bind ((expr_sited budget 0 _ (Nat.zero_le _)).within (skipBlanks_suffix text)
      (by omega)) ?_
    rintro ⟨key, rest⟩ done
    have less := expr_leaves_blanks done
    refine .bind (expect_sited _ ((skipBlanks_suffix rest).trans less.suffix)) ?_
    rintro behind shut
    have more := less.trans (expect_leaves shut)
    have next := more.of_suffix (skipBlanks_suffix behind)
    have := next.length_lt
    refine .bind ((expr_sited budget 0 _ (Nat.zero_le _)).within next.suffix (by omega)) ?_
    rintro ⟨value, rest⟩ done
    have left := more.trans (expr_leaves_blanks done)
    simp only
    split
    · rename_i others same
      have final := left.trans (skipBlanks_leaves same)
      have := final.length_lt
      exact (entries_sited budget _ others).within final.suffix (by omega)
    · exact .ok _
    · exact .fail ((skipBlanks_suffix rest).trans left.suffix) trivial (by rintro _ ⟨⟩)

theorem arguments_sited : (budget : Nat) → (text : List Char) →
    Sited text (16 * text.length + 12 ≤ budget) (arguments budget text)
  | 0, text => .spent (by omega)
  | budget + 1, text => by
    have shorter := (skipBlanks_suffix text).length_le
    unfold arguments
    split
    · exact .ok _
    · exact (moreArguments_sited budget [] _).within (skipBlanks_suffix text) (by omega)

theorem moreArguments_sited : (budget : Nat) → (read : List Expr) → (text : List Char) →
    Sited text (16 * text.length + 11 ≤ budget) (moreArguments budget read text)
  | 0, _, text => .spent (by omega)
  | budget + 1, read, text => by
    have shorter := (skipBlanks_suffix text).length_le
    unfold moreArguments
    refine .bind ((expr_sited budget 0 _ (Nat.zero_le _)).within (skipBlanks_suffix text)
      (by omega)) ?_
    rintro ⟨argument, rest⟩ done
    have left := expr_leaves_blanks done
    simp only
    split
    · rename_i others same
      have final := left.trans (skipBlanks_leaves same)
      have := final.length_lt
      exact (moreArguments_sited budget _ others).within final.suffix (by omega)
    · exact .ok _
    · exact .fail ((skipBlanks_suffix rest).trans left.suffix) trivial (by rintro _ ⟨⟩)

theorem reference?_sited : (budget : Nat) → (text : List Char) →
    Sited text (16 * text.length + 1 ≤ budget) (reference? budget text)
  | 0, text => .spent (by omega)
  | budget + 1, text => by
    rw [reference?_succ]
    split
    · rename_i inner braced
      split
      · rename_i starts
        have inside : inner <:+ text :=
          (List.suffix_cons '\x7b' inner).trans (braced ▸ behindSigil_suffix text)
        have less := Leaves.behind inside (name_leaves starts)
        have := less.length_lt
        refine .bind ((segments_sited budget [] _).within less.suffix (by omega)) ?_
        rintro found done
        split
        · exact .ok _
        · exact .fail List.suffix_rfl trivial (by rintro _ ⟨⟩)
      · exact .ok _
    · split
      · rename_i starts
        have less := Leaves.behind (behindSigil_suffix text) (name_leaves starts)
        have := less.length_lt
        exact .bind ((segments_sited budget [] _).within less.suffix (by omega)) fun _ _ => .ok _
      · exact .ok _

theorem segments_sited : (budget : Nat) → (read : List Segment) → (text : List Char) →
    Sited text (16 * text.length + 1 ≤ budget) (segments budget read text)
  | 0, _, text => .spent (by omega)
  | budget + 1, read, text => by
    unfold segments
    split
    · rename_i behind
      split
      · rename_i starts
        have named := (Leaves.cons '.' behind).trans (name_leaves starts)
        simp only
        split
        · rename_i rest opened
          have less := named.trans (opened ▸ Leaves.cons '(' rest)
          have := less.length_lt
          refine .bind ((arguments_sited budget rest).within less.suffix (by omega)) ?_
          rintro ⟨given, rest⟩ done
          have left := less.trans (arguments_leaves done)
          have := left.length_lt
          exact (segments_sited budget _ rest).within left.suffix (by omega)
        · have := named.length_lt
          exact (segments_sited budget _ _).within named.suffix (by omega)
      · exact .ok _
    · rename_i behind
      have taken := Leaves.cons '[' behind
      have next := taken.of_suffix (skipBlanks_suffix behind)
      have := next.length_lt
      refine .bind ((expr_sited budget 0 _ (Nat.zero_le _)).within next.suffix (by omega)) ?_
      rintro ⟨key, rest⟩ done
      have less := taken.trans (expr_leaves_blanks done)
      refine .bind (expect_sited _ ((skipBlanks_suffix rest).trans less.suffix)) ?_
      rintro others shut
      have left := less.trans (expect_leaves shut)
      have := left.length_lt
      exact (segments_sited budget _ others).within left.suffix (by omega)
    · exact .ok _

theorem condition_sited : (budget : Nat) → (text : List Char) →
    Sited text (16 * text.length + 1 ≤ budget) (condition budget text)
  | 0, text => .spent (by omega)
  | budget + 1, text => by
    unfold condition
    refine .bind (expect_sited _ (skipBlanks_suffix text)) ?_
    rintro behind opened
    have taken := expect_leaves opened
    have next := taken.of_suffix (skipBlanks_suffix behind)
    have := next.length_lt
    refine .bind ((expr_sited budget 0 _ (Nat.zero_le _)).within next.suffix (by omega)) ?_
    rintro ⟨test, rest⟩ done
    have left := (taken.trans (expr_leaves_blanks done)).suffix
    exact .bind (expect_sited _ ((skipBlanks_suffix rest).trans left)) fun _ _ => .ok _

theorem assignment_sited : (budget : Nat) → (text : List Char) →
    Sited text (16 * text.length + 1 ≤ budget) (assignment budget text)
  | 0, text => .spent (by omega)
  | budget + 1, text => by
    unfold assignment
    refine .bind (expect_sited _ (skipBlanks_suffix text)) ?_
    rintro behind opened
    have taken := (expect_leaves opened).of_suffix (skipBlanks_suffix behind)
    have := taken.length_lt
    refine .bind ((reference?_sited budget _).within taken.suffix (by omega)) ?_
    rintro found done
    split
    · exact .fail taken.suffix trivial (by rintro _ ⟨⟩)
    · rename_i root path rest
      split
      · exact .fail taken.suffix trivial (by rintro _ ⟨⟩)
      · have less := taken.trans (reference?_leaves done)
        refine .bind (expect_sited _ ((skipBlanks_suffix rest).trans less.suffix)) ?_
        rintro behind equals
        have more := less.trans (expect_leaves equals)
        have next := more.of_suffix (skipBlanks_suffix behind)
        have := next.length_lt
        refine .bind ((expr_sited budget 0 _ (Nat.zero_le _)).within next.suffix (by omega)) ?_
        rintro ⟨value, rest⟩ done
        have left := (more.trans (expr_leaves_blanks done)).suffix
        exact .bind (expect_sited _ ((skipBlanks_suffix rest).trans left)) fun _ _ => .ok _

theorem returned_sited : (budget : Nat) → (text : List Char) →
    Sited text (16 * text.length + 1 ≤ budget) (returned budget text)
  | 0, text => .spent (by omega)
  | budget + 1, text => by
    unfold returned
    split
    · rename_i behind opened
      have taken : Leaves text behind := by
        obtain ⟨indent, _, same⟩ := indent_split text
        rw [opened] at same
        exact .behind ⟨indent, same.symm⟩ (.cons '(' behind)
      have next := taken.of_suffix (skipBlanks_suffix behind)
      have := next.length_lt
      split
      · exact .ok _
      · refine .bind ((expr_sited budget 0 _ (Nat.zero_le _)).within next.suffix (by omega)) ?_
        rintro ⟨value, rest⟩ done
        have left := (taken.trans (expr_leaves_blanks done)).suffix
        exact .bind (expect_sited _ ((skipBlanks_suffix rest).trans left)) fun _ _ => .ok _
    · exact .ok _

theorem loop_sited : (budget : Nat) → (text : List Char) →
    Sited text (16 * text.length + 1 ≤ budget) (loop budget text)
  | 0, text => .spent (by omega)
  | budget + 1, text => by
    unfold loop
    refine .bind (expect_sited _ (skipBlanks_suffix text)) ?_
    rintro behind opened
    have taken := (expect_leaves opened).of_suffix (skipBlanks_suffix behind)
    have := taken.length_lt
    refine .bind ((reference?_sited budget _).within taken.suffix (by omega)) ?_
    rintro found done
    split
    · rename_i root rest
      have less := (taken.trans (reference?_leaves done)).of_suffix (skipBlanks_suffix rest)
      simp only
      split
      · exact .fail less.suffix trivial (by rintro _ ⟨⟩)
      · rename_i others word
        have more := less.trans ⟨_, List.cons_ne_nil _ _, eatWord?_some word⟩
        have next := more.of_suffix (skipBlanks_suffix others)
        have := next.length_lt
        refine .bind ((expr_sited budget 0 _ (Nat.zero_le _)).within next.suffix (by omega)) ?_
        rintro ⟨list, rest⟩ done
        have left := more.trans (expr_leaves_blanks done)
        refine .bind (expect_sited _ ((skipBlanks_suffix rest).trans left.suffix)) ?_
        rintro body shut
        have final := left.trans (expect_leaves shut)
        have := final.length_lt
        exact .bind
          ((block_sited budget .last [] [] List.suffix_rfl).within final.suffix (by omega))
          fun _ _ => .ok _
    · rename_i rest _
      exact .fail (taken.trans (reference?_leaves done)).suffix trivial (by rintro _ ⟨⟩)
    · exact .fail taken.suffix trivial (by rintro _ ⟨⟩)

theorem branches_sited : (budget : Nat) → (read : List Branch) → (text : List Char) →
    Sited text (16 * text.length + 2 ≤ budget) (branches budget read text)
  | 0, _, text => .spent (by omega)
  | budget + 1, read, text => by
    unfold branches
    refine .bind ((condition_sited budget text).within List.suffix_rfl (by omega)) ?_
    rintro ⟨test, rest⟩ done
    have less := condition_leaves done
    have := less.length_lt
    refine .bind
      ((block_sited budget .branch [] [] List.suffix_rfl).within less.suffix (by omega)) ?_
    rintro ⟨⟨body, ending⟩, behind⟩ done
    have more := less.of_suffix (block_suffix done)
    have := more.length_lt
    simp only
    split
    · exact (branches_sited budget _ behind).within more.suffix (by omega)
    · exact .bind ((block_sited budget .last [] [] List.suffix_rfl).within more.suffix (by omega))
        fun _ _ => .ok _
    · exact .ok _

theorem block_sited : (budget : Nat) → (scope : Scope) → (nodes : List Node) →
    (plain : List Char) → {whole text : List Char} → text <:+ whole →
    Sited whole (16 * text.length + 2 ≤ budget) (block budget scope whole.length nodes plain text)
  | 0, _, _, _, whole, text, inside => (Sited.spent (by omega)).within inside id
  | budget + 1, scope, nodes, plain, whole, text, inside => by
    -- what follows goes on behind a rest of the text
    have onward : ∀ {rest : List Char} (more : List Node) (read : List Char), Leaves text rest →
        Sited whole (16 * text.length + 2 ≤ budget + 1)
          (block budget scope whole.length more read rest) := by
      intro rest more read less
      have := less.length_lt
      exact (block_sited budget scope more read (less.suffix.trans inside)).within List.suffix_rfl
        (by omega)
    unfold block
    split
    · split
      · exact .ok _
      · rintro error ⟨⟩
        exact ⟨⟨whole, List.suffix_rfl, rfl, nofun⟩, fun _ => trivial⟩
    · exact onward _ _ ((Leaves.cons _ _).trans (.cons _ _))
    · exact onward _ _ ((Leaves.cons _ _).trans (.cons _ _))
    · exact onward _ _ ((Leaves.cons _ _).trans ((Leaves.cons _ _).of_suffix (skipLine_suffix _)))
    · split
      · rename_i rest found
        exact onward _ _
          ((Leaves.cons _ _).trans ((Leaves.cons _ _).of_suffix (splitAt?_suffix found)))
      · exact .fail inside trivial (by rintro _ ⟨⟩)
    · split
      · rename_i verbatim rest found
        exact onward _ _ ((Leaves.cons _ _).trans ((Leaves.cons _ _).of_suffix
          ((splitAt?_suffix found).trans (List.suffix_cons _ _))))
      · exact .fail inside trivial (by rintro _ ⟨⟩)
    · split
      · exact onward _ _ (.cons _ _)
      · rename_i directive rest found
        have less := directive?_leaves found
        have := less.length_lt
        simp only
        split
        · refine .bind
            ((assignment_sited budget rest).within (less.suffix.trans inside) (by omega)) ?_
          rintro ⟨node, behind⟩ done
          exact onward _ _ (less.of_suffix (assignment_suffix done))
        · refine .bind
            ((branches_sited budget [] rest).within (less.suffix.trans inside) (by omega)) ?_
          rintro ⟨node, behind⟩ done
          exact onward _ _ (less.of_suffix (branches_suffix done))
        · refine .bind ((loop_sited budget rest).within (less.suffix.trans inside) (by omega)) ?_
          rintro ⟨node, behind⟩ done
          exact onward _ _ (less.of_suffix (loop_suffix done))
        · exact onward _ _ less
        · exact onward _ _ less
        · refine .bind
            ((returned_sited budget rest).within (less.suffix.trans inside) (by omega)) ?_
          rintro ⟨node, behind⟩ done
          exact onward _ _ (less.of_suffix (returned_suffix done))
        · refine .bind
            (expect_sited _ (((skipBlanks_suffix rest).trans less.suffix).trans inside)) ?_
          rintro behind opened
          have more := less.trans (expect_leaves opened)
          have := more.length_lt
          refine .bind
            ((arguments_sited budget behind).within (more.suffix.trans inside) (by omega)) ?_
          rintro ⟨given, behind⟩ done
          exact onward _ _ (more.trans (arguments_leaves done))
        · split
          · exact .ok _
          · exact .fail inside trivial (by rintro _ ⟨⟩)
    · refine .bind ((reference?_sited budget _).within inside (by omega)) ?_
      rintro found done
      split
      · exact onward _ _ (reference?_leaves done)
      · exact onward _ _ (.cons _ _)
    · exact onward _ _ (.cons _ _)

end

/-- **No template lacks a budget, and every error is at a place of its text.** -/
theorem sited_parse (text : List Char) : Sited text True (parse text) := by
  unfold parse
  refine .bind ?_ fun _ _ => .ok _
  refine (block_sited _ .template [] [] List.suffix_rfl).within List.suffix_rfl fun _ => ?_
  unfold budgetFor
  omega

end Parser

end FieldResolver.Template

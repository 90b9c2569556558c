/-
**What the parser leaves of a text.**

A part that was read is spelled by the text in front of what is left, so something was taken from
the text wherever a part has to be written with at least one character. This is what every loop and
every recursion of the parser lives on.

* `Spells.ne_nil`: an expression is not written with nothing;
* `Leaves`: a rest of a text of which something was taken;
* `expr_leaves`, `arguments_leaves`, `reference?_leaves`, `condition_leaves`: parsers that take
  something, and `block_suffix` and others for those that may take nothing;
* `length_quoted?`: the inside of a string is shorter than the string by its quotes.
-/

import FieldResolver.Proofs.Parsing.Spelling

namespace FieldResolver.Template

open FieldResolver.Template.Parser

/-- An expression is spelled by at least one character. -/
theorem Spells.ne_nil {sigil : Char → Prop} {level : Nat} {expr : Expr} {text : List Char}
    (spells : Spells sigil (.expr level expr) text) : text ≠ [] := by
  generalize same : Phrase.expr level expr = phrase at spells
  induction spells generalizing level expr with
  | blankBefore _ _ ih => exact List.append_ne_nil_of_right_ne_nil _ (ih rfl)
  | blankBehind _ _ ih => exact List.append_ne_nil_of_left_ne_nil (ih rfl) _
  | tighter _ ih => exact ih rfl
  | binary _ _ _ ih _ => exact List.append_ne_nil_of_left_ne_nil (ih rfl) _
  | not _ _ ih => exact List.append_ne_nil_of_right_ne_nil _ (ih rfl)
  | number numeral => exact numeral.ne_nil
  | constant known =>
    have all : ∀ entry ∈ constants, entry.1 ≠ [] := by
      simp [constants]
    exact all _ known
  | neg | reference | string | interpolation | emptyList | list | range | emptyMap | map
    | parentheses => exact List.cons_ne_nil _ _
  | _ => cases same

/-- Whether `rest` is what is left of a text of which something was taken. -/
def Leaves (text rest : List Char) : Prop := ∃ front, front ≠ [] ∧ text = front ++ rest

section

variable {text middle rest : List Char}

theorem Leaves.length_lt (leaves : Leaves text rest) : rest.length < text.length := by
  obtain ⟨front, some, rfl⟩ := leaves
  rw [List.length_append]
  have := List.length_pos_of_ne_nil some
  omega

theorem Leaves.suffix (leaves : Leaves text rest) : rest <:+ text := by
  obtain ⟨front, _, rfl⟩ := leaves
  exact List.suffix_append front rest

theorem Leaves.cons (c : Char) (rest : List Char) : Leaves (c :: rest) rest :=
  ⟨[c], List.cons_ne_nil _ _, rfl⟩

theorem Leaves.of_suffix (leaves : Leaves text middle) (less : rest <:+ middle) :
    Leaves text rest := by
  obtain ⟨front, some, rfl⟩ := leaves
  obtain ⟨more, rfl⟩ := less
  exact ⟨front ++ more, List.append_ne_nil_of_left_ne_nil some _, (List.append_assoc ..).symm⟩

theorem Leaves.behind (less : middle <:+ text) (leaves : Leaves middle rest) :
    Leaves text rest := by
  obtain ⟨more, rfl⟩ := less
  obtain ⟨front, some, rfl⟩ := leaves
  exact ⟨more ++ front, List.append_ne_nil_of_right_ne_nil _ some, (List.append_assoc ..).symm⟩

theorem Leaves.trans (first : Leaves text middle) (second : Leaves middle rest) :
    Leaves text rest :=
  first.of_suffix second.suffix

end

namespace Parser

variable {budget : Nat} {text rest : List Char}

/-! ### Scanners -/

theorem skipBlanks_suffix (text : List Char) : skipBlanks text <:+ text :=
  List.dropWhile_suffix _

theorem skipBlanks_leaves {c : Char} (left : skipBlanks text = c :: rest) : Leaves text rest :=
  .behind (skipBlanks_suffix text) (left ▸ .cons c rest)

theorem expect_leaves {wanted : Char} (done : expect wanted (skipBlanks text) = .ok rest) :
    Leaves text rest :=
  skipBlanks_leaves (expect_ok done)

theorem operator?_leaves {level : Nat} {op : BinaryOp}
    (found : operator? level text = some (op, rest)) : Leaves text rest := by
  obtain ⟨spelling, member, same⟩ := operator?_some found
  exact ⟨_, ne_nil_of_mem_operators member, same⟩

theorem directive?_leaves {directive : Directive}
    (found : directive? text = some (directive, rest)) : Leaves text rest := by
  obtain ⟨announced, announces, same⟩ := directive?_some found
  exact ⟨announced, announces.ne_nil, same⟩

theorem name_leaves (starts : startsName text = true) : Leaves text (name text).2 := by
  obtain ⟨label, named, _, same⟩ := name_split starts
  refine ⟨label, ?_, same⟩
  rintro rfl
  cases named.start

theorem behindSigil_suffix (text : List Char) : behindSigil text <:+ text := by
  unfold behindSigil
  split
  · rename_i same
    exact (List.suffix_cons _ _).trans (same ▸ List.drop_suffix 1 text)
  · exact List.drop_suffix 1 text

theorem skipLine_suffix (text : List Char) : skipLine text <:+ text := by
  obtain ⟨line, _, same⟩ := skipLine_split text
  exact ⟨line, same.symm⟩

theorem splitAt?_suffix {spelling front : List Char}
    (found : splitAt? spelling text = some (front, rest)) : rest <:+ text :=
  ⟨front ++ spelling, by rw [splitAt?_some found, List.append_assoc]⟩

theorem length_le_doubled (quote : Char) (content : List Char) :
    content.length ≤ (doubled quote content).length := by
  induction content with
  | nil => exact Nat.le_refl _
  | cons c content ih =>
    have split : doubled quote (c :: content) =
      (if c = quote then [quote, quote] else [c]) ++ doubled quote content := rfl
    rw [split, List.length_append, List.length_cons]
    split <;> simp only [List.length_cons, List.length_nil] <;> omega

/-- The inside of a string and what is left behind it are shorter than the text behind the opening
quote. -/
theorem length_quoted? {quote : Char} {content : List Char}
    (found : quoted? quote [] text = some (content, rest)) :
    content.length + rest.length < text.length := by
  obtain ⟨_, rfl, rfl⟩ := quoted?_some found
  have := length_le_doubled quote (List.reverse [] ++ ‹_›)
  simp only [List.length_append, List.length_cons, List.reverse_nil, List.nil_append] at this ⊢
  omega

/-! ### Parsers -/

theorem expr_leaves {level : Nat} (bound : level ≤ levels) {value : Expr}
    (done : expr budget level text = .ok (value, rest)) : Leaves text rest := by
  obtain ⟨front, same, spells⟩ := expr_reads budget bound done
  exact ⟨front, spells.ne_nil, same⟩

/-- An expression of any kind, which white space may stand in front of. -/
theorem expr_leaves_blanks {value : Expr}
    (done : expr budget 0 (skipBlanks text) = .ok (value, rest)) : Leaves text rest :=
  .behind (skipBlanks_suffix text) (expr_leaves (Nat.zero_le _) done)

theorem arguments_leaves {all : List Expr} (done : arguments budget text = .ok (all, rest)) :
    Leaves text rest := by
  obtain ⟨front, same, spells⟩ := arguments_reads budget done
  refine ⟨front, ?_, same⟩
  cases spells <;> simp

theorem reference?_leaves {root : String} {path : List Segment}
    (done : reference? budget text = .ok (some ((root, path), rest))) : Leaves text rest := by
  obtain ⟨c, front, same, _⟩ := reference?_reads budget done
  exact ⟨c :: front, List.cons_ne_nil _ _, same⟩

theorem condition_leaves {test : Expr} (done : condition budget text = .ok (test, rest)) :
    Leaves text rest := by
  obtain ⟨front, same, spells⟩ := condition_reads budget done
  refine ⟨front, ?_, same⟩
  cases spells
  simp

theorem assignment_suffix {node : Node} (done : assignment budget text = .ok (node, rest)) :
    rest <:+ text := by
  obtain ⟨front, same, _⟩ := assignment_reads budget done
  exact ⟨front, same.symm⟩

theorem returned_suffix {node : Node} (done : returned budget text = .ok (node, rest)) :
    rest <:+ text := by
  obtain ⟨front, same, _⟩ := returned_reads budget done
  exact ⟨front, same.symm⟩

theorem loop_suffix {node : Node} (done : loop budget text = .ok (node, rest)) : rest <:+ text := by
  obtain ⟨front, same, _⟩ := loop_reads budget done
  exact ⟨front, same.symm⟩

theorem branches_suffix {read : List Branch} {node : Node}
    (done : branches budget read text = .ok (node, rest)) : rest <:+ text := by
  obtain ⟨_, _, front, _, same, _⟩ := branches_reads budget done
  exact ⟨front, same.symm⟩

theorem block_suffix {scope : Scope} {start : Nat} {nodes all : List Node} {plain : List Char}
    {ending : Ending}
    (done : block budget scope start nodes plain text = .ok ((all, ending), rest)) :
    rest <:+ text := by
  obtain ⟨_, front, close, _, same, _⟩ := block_reads budget done
  exact ⟨front ++ close, by rw [same, List.append_assoc]⟩

end Parser

end FieldResolver.Template

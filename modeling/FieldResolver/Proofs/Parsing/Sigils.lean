/-
**The sigil of a target.**

A reference in a text or an expression is read only where a `$` stands. The target of a `#set` and
the variable of a `#foreach` are read behind whatever visible character stands in the place of the
`$`, and this character makes no difference: `#set(foo = 1)` assigns to `oo`.

* `reference?_sigil`, `assignment_sigil`, `loop_sigil`: which character it is does not matter;
* `Spells.dollar`: what a text without a `$` cannot spell if every sigil has to be a `$`;
* `targets_spelled`: what is true of every accepted template, and that no sigil is looked at.
-/

import FieldResolver.Proofs.Parsing.Spelling
import Mathlib

namespace FieldResolver.Template

open FieldResolver.Template.Parser

namespace Parser

/-! ### The sigil makes no difference -/

theorem reference?_sigil (budget : Nat) (c d : Char) (rest : List Char) :
    reference? budget (c :: rest) = reference? budget (d :: rest) := by
  cases budget with
  | zero => rfl
  | succ budget =>
    rw [reference?_succ, reference?_succ]
    rfl

/-- An opening parenthesis behind white space. -/
theorem expect_open {blank : List Char} (isBlank : Blanks blank) (rest : List Char) :
    expect '(' (skipBlanks (blank ++ '(' :: rest)) = .ok rest := by
  rw [skipBlanks_append isBlank (rfl : Text.isBlank '(' = false)]
  rfl

section

variable {blank gap : List Char} (isBlank : Blanks blank) (isGap : Blanks gap) {c d : Char}
  (visible : Visible c) (other : Visible d) (budget : Nat) (rest : List Char)

include isBlank isGap visible other

theorem assignment_sigil :
    assignment budget (blank ++ '(' :: (gap ++ c :: rest)) =
      assignment budget (blank ++ '(' :: (gap ++ d :: rest)) := by
  cases budget with
  | zero => simp [assignment, fail]
  | succ budget =>
    rw [assignment, assignment, expect_open isBlank, expect_open isBlank]
    show (reference? budget (skipBlanks (gap ++ c :: rest)) >>= _) =
      (reference? budget (skipBlanks (gap ++ d :: rest)) >>= _)
    rw [skipBlanks_append isGap visible, skipBlanks_append isGap other,
      reference?_sigil budget c d]
    rfl

theorem loop_sigil :
    loop budget (blank ++ '(' :: (gap ++ c :: rest)) =
      loop budget (blank ++ '(' :: (gap ++ d :: rest)) := by
  cases budget with
  | zero => simp [loop, fail]
  | succ budget =>
    rw [loop, loop, expect_open isBlank, expect_open isBlank]
    show (reference? budget (skipBlanks (gap ++ c :: rest)) >>= _) =
      (reference? budget (skipBlanks (gap ++ d :: rest)) >>= _)
    rw [skipBlanks_append isGap visible, skipBlanks_append isGap other,
      reference?_sigil budget c d]
    rfl

end

end Parser

/-! ### Texts without a dollar sign -/

/-- Whether a node is a reference or names what it assigns to. -/
def Node.refers : Node → Bool
  | .reference .. | .set .. | .foreach .. => true
  | _ => false

theorem refers_withText {plain : List Char} {nodes : List Node}
    (refers : ∃ node ∈ withText plain nodes, node.refers) : ∃ node ∈ nodes, node.refers := by
  obtain ⟨node, member, refers⟩ := refers
  unfold withText at member
  split at member
  · exact ⟨node, member, refers⟩
  · split at member
    · rcases List.mem_cons.mp member with rfl | member
      · cases refers
      · exact ⟨node, List.mem_cons_of_mem _ member, refers⟩
    · rcases List.mem_cons.mp member with rfl | member
      · cases refers
      · exact ⟨node, member, refers⟩

theorem Spells.dollar_of_refers {node : Node} {text : List Char}
    (spells : Spells (· = '$') (.node node) text) (refers : node.refers) : '$' ∈ text := by
  cases spells with
  | written => exact List.mem_cons_self
  | set _ _ _ stands => simp [stands]
  | foreach _ _ _ stands => simp [stands]
  | _ => cases refers

/-- **If every sigil has to be a `$`,** a text that refers to something has one. -/
theorem Spells.dollar {nodes : List Node} {text : List Char}
    (spells : Spells (· = '$') (.nodes nodes) text) (refers : ∃ node ∈ nodes, node.refers) :
    '$' ∈ text := by
  generalize same : Phrase.nodes nodes = phrase at spells
  induction spells generalizing nodes with
  | noNode =>
    cases same
    simp at refers
  | literally _ _ ih =>
    cases same
    exact List.mem_append_right _ (ih (refers_withText refers) rfl)
  | nextNode here below _ ih =>
    cases same
    obtain ⟨node, member, refers⟩ := refers
    rcases List.mem_cons.mp member with rfl | member
    · exact List.mem_append_left _ (here.dollar_of_refers refers)
    · exact List.mem_append_right _ (ih ⟨node, member, refers⟩ rfl)
  | _ => cases same

/-- **What is read in the place of a target is spelled by the grammar,** with any visible character
as its sigil, and no other such character would be read differently. -/
theorem targets_spelled {text : List Char} {nodes : List Node} (accepted : parse text = .ok nodes) :
    Spells Visible (.nodes nodes) text ∧
      ∀ (budget : Nat) (blank gap rest : List Char) (c d : Char), Blanks blank → Blanks gap →
        Visible c → Visible d →
        assignment budget (blank ++ '(' :: (gap ++ c :: rest)) =
            assignment budget (blank ++ '(' :: (gap ++ d :: rest)) ∧
          loop budget (blank ++ '(' :: (gap ++ c :: rest)) =
            loop budget (blank ++ '(' :: (gap ++ d :: rest)) := by
  refine ⟨spells_of_parse accepted, ?_⟩
  intro budget blank gap rest c d isBlank isGap visible other
  exact ⟨assignment_sigil isBlank isGap visible other budget rest,
    loop_sigil isBlank isGap visible other budget rest⟩

namespace Undollared

/-- A template with two targets and no `$`. -/
def source : List Char := "#set(foo = 1)#foreach(xy in [2])#end".toList

/-- What it assigns to, without the characters in the place of the sigils. -/
def nodes : List Node := [.set "oo" [] (.int 1), .foreach "y" (.list [.int 2]) []]

theorem parse_source : parse source = .ok nodes := by cbv

/-- **A template with no `$` assigns to a variable**, whose name leaves the first character out. -/
theorem accepted_without_dollar :
    parse source = .ok nodes ∧ ¬ Spells (· = '$') (.nodes nodes) source := by
  refine ⟨parse_source, fun spells => ?_⟩
  have refers : ∃ node ∈ nodes, node.refers := ⟨_, List.mem_cons_self, rfl⟩
  exact absurd (spells.dollar refers) (by decide)

/-- It is spelled with an `f` and an `x` as sigils, which may as well be dollar signs. -/
theorem sigils_unread :
    Spells Visible (.nodes nodes) source ∧
      assignment 40 "(foo = 1)".toList = assignment 40 "($oo = 1)".toList := by
  obtain ⟨spells, unread⟩ := targets_spelled parse_source
  exact ⟨spells, (unread 40 [] [] "oo = 1)".toList 'f' '$' .nil .nil rfl rfl).1⟩

end Undollared

end FieldResolver.Template

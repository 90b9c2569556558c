/-
**What the parser reads is spelled.**

Every part that the parser reads is spelled by the text that it takes for it, and what it leaves is
the rest of the text. The parsers call one another, so this is shown of all of them at once, by
induction on the budget. Those that go on behind what was read before say what their text adds to
it.

A reference is parsed behind its sigil by everyone who asks for one, and only the callers look at
the sigil itself: those for text and for expressions have seen a `$`, those for `#set` and
`#foreach` nothing but a visible character. So this is what the grammar of an accepted template asks
there.

* `Reads`, `Closes`: a part read at the front of a text; what ends a block;
* `expr_reads`, `block_reads`: what is read as an expression and as a block;
* `spells_of_parse`: an accepted template is spelled by its text.
-/

import FieldResolver.Proofs.Parsing.Grammar
import FieldResolver.Proofs.Fallible

namespace FieldResolver.Template.Parser

open Fallible

/-- Whether a part is spelled by a text in front of `rest`. -/
def Reads (phrase : Phrase) (text rest : List Char) : Prop :=
  ∃ front, text = front ++ rest ∧ Spells Visible phrase front

/-- What ends a block of a scope in front of `rest`, and how it is spelled. -/
inductive Closes (scope : Scope) : Ending → List Char → List Char → Prop
  | endOfText (outermost : scope = .template) : Closes scope .endOfText [] []
  | directive {ending : Ending} {closing : Directive} {text rest : List Char}
    (ends : scope.ending? closing = some ending) (announces : Announces closing text) :
    Closes scope ending text rest

/-- Whether a block goes on with a text in front of `rest`, behind the nodes read so far and the
text since the last of them. -/
def ReadsBlock (scope : Scope) (nodes : List Node) (plain text : List Char) (all : List Node)
    (ending : Ending) (rest : List Char) : Prop :=
  ∃ more front close, all = nodes.reverse ++ withText plain.reverse more ∧
    text = front ++ (close ++ rest) ∧ Spells Visible (.nodes more) front ∧
    Closes scope ending close rest

section

variable {level : Nat} {expr : Expr} {text rest : List Char}

theorem Reads.blankBefore (read : Reads (.expr level expr) (skipBlanks text) rest) :
    Reads (.expr level expr) text rest := by
  obtain ⟨blank, isBlank, split⟩ := skipBlanks_split text
  obtain ⟨front, same, spells⟩ := read
  exact ⟨blank ++ front, by rw [List.append_assoc, ← same, ← split], .blankBefore isBlank spells⟩

theorem Reads.blankBehind (read : Reads (.expr level expr) text rest) :
    Reads (.expr level expr) text (skipBlanks rest) := by
  obtain ⟨blank, isBlank, split⟩ := skipBlanks_split rest
  obtain ⟨front, same, spells⟩ := read
  exact ⟨front ++ blank, by rw [List.append_assoc, ← split, same], .blankBehind isBlank spells⟩

/-- An expression with the character that has to follow it. -/
theorem Reads.upTo {c : Char} (read : Reads (.expr level expr) text rest) {behind : List Char}
    (shut : expect c (skipBlanks rest) = .ok behind) :
    ∃ front, text = front ++ c :: behind ∧ Spells Visible (.expr level expr) front := by
  have read := read.blankBehind
  rw [expect_ok shut] at read
  exact read

/-- A block that no directive ends is a whole template. -/
theorem ReadsBlock.template {all : List Node} {ending : Ending}
    (read : ReadsBlock .template [] [] text all ending rest) :
    Spells Visible (.nodes all) text := by
  obtain ⟨more, front, close, rfl, rfl, spells, closes⟩ := read
  cases closes with
  | endOfText =>
    rw [List.append_nil, List.append_nil]
    exact spells
  | directive ends => cases ends

end

/-- Only its `#end` ends a last block. -/
theorem Closes.last {ending : Ending} {text rest : List Char}
    (closes : Closes .last ending text rest) : Announces .end text := by
  cases closes with
  | endOfText outermost => cases outermost
  | @directive _ closing _ _ ends announces =>
    cases closing with
    | «end» => exact announces
    | _ => cases ends

/-- A branch is ended by the directive that its ending is named for. -/
theorem Closes.branch {ending : Ending} {text rest : List Char}
    (closes : Closes .branch ending text rest) :
    (ending = .elseif ∧ Announces .elseif text) ∨ (ending = .else ∧ Announces .else text) ∨
      (ending = .end ∧ Announces .end text) := by
  cases closes with
  | endOfText outermost => cases outermost
  | @directive _ closing _ _ ends announces =>
    cases closing with
    | elseif =>
      cases ends
      exact .inl ⟨rfl, announces⟩
    | «else» =>
      cases ends
      exact .inr (.inl ⟨rfl, announces⟩)
    | «end» =>
      cases ends
      exact .inr (.inr ⟨rfl, announces⟩)
    | _ => cases ends

theorem indent_split (text : List Char) :
    ∃ indent, Indent indent ∧ text = indent ++ text.dropWhile (fun c => c == ' ' || c == '\t') :=
  ⟨text.takeWhile fun c => c == ' ' || c == '\t',
    fun _ member => by simpa using List.mem_takeWhile_imp member,
    List.takeWhile_append_dropWhile.symm⟩

/-! ### Text between nodes -/

theorem withText_nil (nodes : List Node) : withText [] nodes = nodes := rfl

theorem withText_append (front behind : List Char) (nodes : List Node) :
    withText (front ++ behind) nodes = withText front (withText behind nodes) := by
  cases behind with
  | nil => rw [List.append_nil, withText_nil]
  | cons c behind =>
    cases front with
    | nil => rfl
    | cons d front =>
      cases nodes with
      | nil => simp [withText]
      | cons node nodes => cases node <;> simp [withText]

/-- What was read before a node, with the text since the last one, and the nodes from it on. -/
theorem flush_append {sigil : Char → Prop} {node : Node} {text : List Char}
    (spells : Spells sigil (.node node) text) (read : List Node) (plain : List Char)
    (nodes : List Node) :
    (flush read plain).reverse ++ node :: nodes =
      read.reverse ++ withText plain.reverse (node :: nodes) := by
  cases plain with
  | nil => rfl
  | cons c plain =>
    have filled : (c :: plain).reverse ≠ [] := by simp
    cases spells <;> simp [flush, withText]

theorem flush_reverse (read : List Node) (plain : List Char) :
    (flush read plain).reverse = read.reverse ++ withText plain.reverse [] := by
  cases plain with
  | nil => simp [flush, withText]
  | cons c plain => simp [flush, withText]

/-- A piece of text in front of a block. -/
theorem ReadsBlock.literally {scope : Scope} {nodes all : List Node} {ending : Ending}
    {plain more piece text rest : List Char} (stands : Literally more piece)
    (read : ReadsBlock scope nodes (more.reverse ++ plain) text all ending rest) :
    ReadsBlock scope nodes plain (piece ++ text) all ending rest := by
  obtain ⟨others, front, close, rfl, rfl, spells, closes⟩ := read
  refine ⟨withText more others, piece ++ front, close, ?_, by simp, .literally stands spells,
    closes⟩
  rw [List.reverse_append, List.reverse_reverse, withText_append]

/-- A node in front of a block, behind the text since the last one. -/
theorem ReadsBlock.node {scope : Scope} {nodes all : List Node} {node : Node} {ending : Ending}
    {plain piece text rest : List Char} (stands : Spells Visible (.node node) piece)
    (read : ReadsBlock scope (node :: flush nodes plain) [] text all ending rest) :
    ReadsBlock scope nodes plain (piece ++ text) all ending rest := by
  obtain ⟨others, front, close, rfl, rfl, spells, closes⟩ := read
  refine ⟨node :: others, piece ++ front, close, ?_, by simp, .nextNode stands spells, closes⟩
  rw [List.reverse_cons, List.append_assoc]
  exact flush_append stands nodes plain others

/-! ### All parsers at once -/

/-- Only the levels of binding have operators. -/
theorem succ_le_levels_of_mem {level : Nat} {entry : Spelling × BinaryOp}
    (member : entry ∈ operators level) : level + 1 ≤ levels := by
  by_contra outside
  obtain ⟨more, rfl⟩ : ∃ more, level = more + 6 := ⟨level - 6, by unfold levels at outside; omega⟩
  exact absurd member List.not_mem_nil

/-- What follows a sigil: a reference that may be quiet. -/
theorem sigil_split {text front rest : List Char} {root : String} {path : List Segment}
    (some : behindSigil text ≠ []) (split : behindSigil text = front ++ rest)
    (spells : Spells Visible (.reference root path) front) :
    ∃ c front, text = c :: (front ++ rest) ∧ Spells Visible (.reference root path) front := by
  cases text with
  | nil => exact absurd rfl some
  | cons c more =>
    unfold behindSigil at split
    rw [List.drop_succ_cons, List.drop_zero] at split
    split at split
    · exact ⟨c, '!' :: front, by rw [split]; rfl, .quiet spells⟩
    · exact ⟨c, front, by rw [split], spells⟩

mutual

theorem expr_reads : (budget : Nat) → {level : Nat} → {text rest : List Char} → {value : Expr} →
    level ≤ levels → expr budget level text = .ok (value, rest) →
    Reads (.expr level value) text rest
  | 0, _, _, _, _, _, done => nomatch done
  | budget + 1, level, text, rest, value, bound, done => by
    unfold expr at done
    split at done
    · rename_i loose
      obtain ⟨⟨left, middle⟩, first, others⟩ := bind_ok done
      obtain ⟨front, rfl, spells⟩ := expr_reads budget loose first
      obtain ⟨behind, rfl, spells⟩ := operands_reads budget others (.tighter spells)
      exact ⟨front ++ behind, (List.append_assoc ..).symm, spells⟩
    · rename_i tight
      obtain rfl : level = levels := by omega
      exact unary_reads budget done

theorem operands_reads : (budget : Nat) → {level : Nat} → {left value : Expr} →
    {front text rest : List Char} → operands budget level left text = .ok (value, rest) →
    Spells Visible (.expr level left) front →
    ∃ behind, text = behind ++ rest ∧ Spells Visible (.expr level value) (front ++ behind)
  | 0, _, _, _, _, _, _, done, _ => nomatch done
  | budget + 1, level, left, value, front, text, rest, done, spells => by
    obtain ⟨blank, isBlank, split⟩ := skipBlanks_split text
    have spells := Spells.blankBehind isBlank spells
    unfold operands at done
    simp only at done
    split at done
    · cases done
      exact ⟨blank, split, spells⟩
    · rename_i op behind found
      obtain ⟨spelling, member, same⟩ := operator?_some found
      obtain ⟨⟨right, middle⟩, second, others⟩ := bind_ok done
      have inside := succ_le_levels_of_mem member
      obtain ⟨operand, rfl, read⟩ := (expr_reads budget inside second).blankBefore
      obtain ⟨more, rfl, spells⟩ := operands_reads budget others (.binary member spells read)
      refine ⟨blank ++ (spelling.text ++ (operand ++ more)), ?_, by simpa using spells⟩
      rw [split, same]
      simp

theorem unary_reads : (budget : Nat) → {text rest : List Char} → {value : Expr} →
    unary budget text = .ok (value, rest) → Reads (.expr levels value) text rest
  | 0, _, _, _, done => nomatch done
  | budget + 1, text, rest, value, done => by
    refine Reads.blankBefore ?_
    unfold unary at done
    split at done
    · rename_i behind same
      rw [same]
      split at done
      · exact primary_reads budget done
      · obtain ⟨⟨operand, middle⟩, read, last⟩ := bind_ok done
        cases last
        obtain ⟨front, rfl, spells⟩ := unary_reads budget read
        exact ⟨'!' :: front, rfl, .not (.inl rfl) spells⟩
    · rename_i behind same
      rw [same]
      obtain ⟨⟨operand, middle⟩, read, last⟩ := bind_ok done
      cases last
      obtain ⟨front, rfl, spells⟩ := unary_reads budget read
      exact ⟨'-' :: front, rfl, .neg spells⟩
    · split at done
      · rename_i behind found
        obtain ⟨⟨operand, middle⟩, read, last⟩ := bind_ok done
        cases last
        obtain ⟨front, rfl, spells⟩ := unary_reads budget read
        exact ⟨_ ++ front, by rw [List.append_assoc]; exact eatWord?_some found,
          .not (.inr rfl) spells⟩
      · exact primary_reads budget done

theorem primary_reads : (budget : Nat) → {text rest : List Char} → {value : Expr} →
    primary budget text = .ok (value, rest) → Reads (.expr levels value) text rest
  | 0, _, _, _, done => nomatch done
  | budget + 1, text, rest, value, done => by
    unfold primary at done
    split at done
    · cases done
    · rename_i c behind
      split at done
      · -- a reference
        obtain ⟨found, read, last⟩ := bind_ok done
        split at last
        · cases last
          obtain ⟨c, front, same, spells⟩ := reference?_reads budget read
          cases same
          exact ⟨'$' :: front, rfl, .reference spells⟩
        · cases last
      · -- a string in single quotes
        split at done
        · rename_i read left found
          cases done
          obtain ⟨content, same, rfl⟩ := quoted?_some found
          cases same
          exact ⟨inQuotes '\'' content, by simp [inQuotes], .string content (.inl rfl)⟩
        · cases done
      · -- a string in double quotes
        split at done
        · rename_i content left found
          obtain ⟨content, rfl, rfl⟩ := quoted?_some found
          refine ⟨inQuotes '"' content, ?_, ?_⟩
          · split at done
            · split at done
              · cases done
                simp [inQuotes]
              · cases done
            · cases done
              simp [inQuotes]
          · split at done
            · split at done
              · rename_i nodes ending none inner
                cases done
                exact .interpolation (block_reads budget inner).template
              · cases done
            · cases done
              exact .string content (.inr rfl)
        · cases done
      · -- a list or a range
        obtain ⟨front, rfl, spells⟩ := listOrRange_reads budget done
        exact ⟨_, rfl, spells⟩
      · -- a map
        obtain ⟨blank, isBlank, split⟩ := skipBlanks_split behind
        simp only at done
        split at done
        · rename_i left same
          cases done
          exact ⟨'\x7b' :: (blank ++ ['\x7d']), by rw [split, same]; simp, .emptyMap isBlank⟩
        · obtain ⟨⟨all, final⟩, read, last⟩ := bind_ok done
          cases last
          obtain ⟨more, body, rfl, same, spells⟩ := entries_reads budget read
          refine ⟨'\x7b' :: (blank ++ body ++ ['\x7d']), ?_,
            .map (spells.blankBefore_entries isBlank)⟩
          rw [split, same]
          simp
      · -- an expression in parentheses
        obtain ⟨⟨inner, middle⟩, read, closed⟩ := bind_ok done
        obtain ⟨_, shut, last⟩ := bind_ok closed
        cases last
        obtain ⟨front, rfl, spells⟩ :=
          (expr_reads budget (Nat.zero_le _) read).blankBefore.upTo shut
        exact ⟨'(' :: (front ++ [')']), by simp, .parentheses spells⟩
      · -- a number or a constant
        split at done
        · rename_i digit
          obtain ⟨front, numeral, same⟩ := number_ok digit done
          exact ⟨front, same, .number numeral⟩
        · obtain ⟨word, known, same⟩ := constant_ok done
          exact ⟨word, same, .constant known⟩

theorem listOrRange_reads : (budget : Nat) → {text rest : List Char} → {value : Expr} →
    listOrRange budget text = .ok (value, rest) →
    ∃ front, text = front ++ rest ∧ Spells Visible (.expr levels value) ('[' :: front)
  | 0, _, _, _, done => nomatch done
  | budget + 1, text, rest, value, done => by
    unfold listOrRange at done
    split at done
    · rename_i behind same
      cases done
      obtain ⟨blank, isBlank, split⟩ := skipBlanks_split text
      exact ⟨blank ++ [']'], by rw [split, same]; simp, .emptyList isBlank⟩
    · obtain ⟨⟨first, middle⟩, read, others⟩ := bind_ok done
      have start := (expr_reads budget (Nat.zero_le _) read).blankBefore
      simp only at others
      split at others
      · rename_i behind dots
        obtain ⟨⟨last, final⟩, second, closed⟩ := bind_ok others
        obtain ⟨_, shut, last⟩ := bind_ok closed
        cases last
        obtain ⟨front, rfl, spells⟩ := start.blankBehind
        obtain ⟨operand, rfl, spelled⟩ :=
          (expr_reads budget (Nat.zero_le _) second).blankBefore.upTo shut
        refine ⟨front ++ '.' :: '.' :: (operand ++ [']']), ?_, .range spells spelled⟩
        rw [dropFront?_some dots]
        simp
      · obtain ⟨⟨all, final⟩, second, last⟩ := bind_ok others
        cases last
        obtain ⟨front, rfl, spells⟩ := start
        obtain ⟨more, body, rfl, rfl, spelled⟩ := items_reads budget second
        exact ⟨front ++ (body ++ [']']), by simp, by simpa using Spells.list (spelled spells)⟩

theorem items_reads : (budget : Nat) → {read all : List Expr} → {text rest : List Char} →
    items budget read text = .ok (all, rest) →
    ∃ more body, all = read.reverse ++ more ∧ text = body ++ ']' :: rest ∧
      ∀ {item front}, Spells Visible (.expr 0 item) front →
        Spells Visible (.items (item :: more)) (front ++ body)
  | 0, _, _, _, _, done => nomatch done
  | budget + 1, read, all, text, rest, done => by
    obtain ⟨blank, isBlank, split⟩ := skipBlanks_split text
    unfold items at done
    split at done
    · rename_i behind same
      obtain ⟨⟨item, middle⟩, here, others⟩ := bind_ok done
      obtain ⟨front, rfl, spells⟩ := (expr_reads budget (Nat.zero_le _) here).blankBefore
      obtain ⟨more, body, rfl, rfl, spelled⟩ := items_reads budget others
      refine ⟨item :: more, blank ++ ',' :: (front ++ body), by simp, ?_, fun first => ?_⟩
      · rw [split, same]
        simp
      · simpa using Spells.nextItem (.blankBehind isBlank first) (spelled spells)
    · rename_i behind same
      cases done
      exact ⟨[], blank, by simp, by rw [split, same], fun first =>
        .lastItem (.blankBehind isBlank first)⟩
    · cases done

theorem entries_reads : (budget : Nat) → {read all : List Entry} → {text rest : List Char} →
    entries budget read text = .ok (all, rest) →
    ∃ more body, all = read.reverse ++ more ∧ text = body ++ '\x7d' :: rest ∧
      Spells Visible (.entries more) body
  | 0, _, _, _, _, done => nomatch done
  | budget + 1, read, all, text, rest, done => by
    unfold entries at done
    obtain ⟨⟨key, middle⟩, first, colon⟩ := bind_ok done
    obtain ⟨_, shut, others⟩ := bind_ok colon
    obtain ⟨⟨value, final⟩, second, separator⟩ := bind_ok others
    obtain ⟨front, rfl, label⟩ := (expr_reads budget (Nat.zero_le _) first).blankBefore.upTo shut
    obtain ⟨behind, rfl, content⟩ :=
      (expr_reads budget (Nat.zero_le _) second).blankBefore.blankBehind
    simp only at separator
    split at separator
    · rename_i left same
      obtain ⟨more, body, rfl, rfl, spells⟩ := entries_reads budget separator
      refine ⟨.mk key value :: more, front ++ ':' :: (behind ++ ',' :: body), by simp, ?_,
        .nextEntry label content spells⟩
      rw [same]
      simp
    · rename_i left same
      cases separator
      refine ⟨[.mk key value], front ++ ':' :: behind, by simp, ?_, .lastEntry label content⟩
      rw [same]
      simp
    · cases separator

theorem arguments_reads : (budget : Nat) → {text rest : List Char} → {all : List Expr} →
    arguments budget text = .ok (all, rest) → Reads (.arguments all) text rest
  | 0, _, _, _, done => nomatch done
  | budget + 1, text, rest, all, done => by
    obtain ⟨blank, isBlank, split⟩ := skipBlanks_split text
    unfold arguments at done
    split at done
    · rename_i behind same
      cases done
      exact ⟨blank ++ [')'], by rw [split, same]; simp, .noArguments isBlank⟩
    · obtain ⟨more, body, rfl, same, spells⟩ := moreArguments_reads budget done
      refine ⟨blank ++ body ++ [')'], ?_, .arguments (spells.blankBefore_items isBlank)⟩
      rw [split, same]
      simp

theorem moreArguments_reads : (budget : Nat) → {read all : List Expr} → {text rest : List Char} →
    moreArguments budget read text = .ok (all, rest) →
    ∃ more body, all = read.reverse ++ more ∧ text = body ++ ')' :: rest ∧
      Spells Visible (.items more) body
  | 0, _, _, _, _, done => nomatch done
  | budget + 1, read, all, text, rest, done => by
    unfold moreArguments at done
    obtain ⟨⟨item, middle⟩, here, others⟩ := bind_ok done
    obtain ⟨front, rfl, spells⟩ := (expr_reads budget (Nat.zero_le _) here).blankBefore.blankBehind
    simp only at others
    split at others
    · rename_i left same
      obtain ⟨more, body, rfl, rfl, below⟩ := moreArguments_reads budget others
      exact ⟨item :: more, front ++ ',' :: body, by simp, by rw [same]; simp,
        .nextItem spells below⟩
    · rename_i left same
      cases others
      exact ⟨[item], front, by simp, by rw [same], .lastItem spells⟩
    · cases others

theorem reference?_reads : (budget : Nat) → {text rest : List Char} → {root : String} →
    {path : List Segment} → reference? budget text = .ok (some ((root, path), rest)) →
    ∃ c front, text = c :: (front ++ rest) ∧ Spells Visible (.reference root path) front
  | 0, _, _, _, _, done => nomatch done
  | budget + 1, text, rest, root, path, done => by
    rw [reference?_succ] at done
    split at done
    · rename_i inner braced
      split at done
      · rename_i starts
        obtain ⟨label, named, same, split⟩ := name_split starts
        obtain ⟨⟨more, final⟩, read, closed⟩ := bind_ok done
        obtain ⟨_, front, rfl, left, spells⟩ := segments_reads budget read
        simp only at closed
        split at closed
        · rename_i behind
          cases closed
          rw [same]
          refine sigil_split (by rw [braced]; exact List.cons_ne_nil _ _) ?_ (.braced named spells)
          rw [braced, split, left]
          simp
        · cases closed
      · cases done
    · split at done
      · rename_i starts
        obtain ⟨label, named, same, split⟩ := name_split starts
        obtain ⟨⟨more, final⟩, read, last⟩ := bind_ok done
        cases last
        obtain ⟨_, front, rfl, left, spells⟩ := segments_reads budget read
        rw [same]
        refine sigil_split (fun empty => ?_) ?_ (.bare named spells)
        · rw [empty] at starts
          cases starts
        · rw [split, left]
          simp
      · cases done

theorem segments_reads : (budget : Nat) → {read all : List Segment} → {text rest : List Char} →
    segments budget read text = .ok (all, rest) →
    ∃ more front, all = read.reverse ++ more ∧ text = front ++ rest ∧
      Spells Visible (.path more) front
  | 0, _, _, _, _, done => nomatch done
  | budget + 1, read, all, text, rest, done => by
    unfold segments at done
    split at done
    · rename_i behind
      split at done
      · rename_i starts
        obtain ⟨label, named, same, split⟩ := name_split starts
        simp only at done
        rw [same] at done
        split at done
        · rename_i left opened
          obtain ⟨⟨given, final⟩, second, others⟩ := bind_ok done
          obtain ⟨text, rfl, spells⟩ := arguments_reads budget second
          obtain ⟨more, front, rfl, rfl, below⟩ := segments_reads budget others
          refine ⟨.method (String.ofList label) given :: more,
            '.' :: (label ++ '(' :: (text ++ front)),
            by simp, ?_, .method named spells below⟩
          rw [split, opened]
          simp
        · obtain ⟨more, front, rfl, left, below⟩ := segments_reads budget done
          refine ⟨.property (String.ofList label) :: more, '.' :: (label ++ front), by simp, ?_,
            .property named below⟩
          rw [split, left]
          simp
      · cases done
        exact ⟨[], [], by simp, rfl, .noSegment⟩
    · obtain ⟨⟨key, middle⟩, inside, others⟩ := bind_ok done
      obtain ⟨_, shut, others⟩ := bind_ok others
      obtain ⟨text, rfl, spells⟩ := (expr_reads budget (Nat.zero_le _) inside).blankBefore.upTo shut
      obtain ⟨more, front, rfl, rfl, below⟩ := segments_reads budget others
      exact ⟨.index key :: more, '[' :: (text ++ ']' :: front), by simp, by simp,
        .index spells below⟩
    · cases done
      exact ⟨[], [], by simp, rfl, .noSegment⟩

theorem condition_reads : (budget : Nat) → {text rest : List Char} → {test : Expr} →
    condition budget text = .ok (test, rest) → Reads (.condition test) text rest
  | 0, _, _, _, done => nomatch done
  | budget + 1, text, rest, test, done => by
    obtain ⟨blank, isBlank, split⟩ := skipBlanks_split text
    unfold condition at done
    obtain ⟨inner, opened, others⟩ := bind_ok done
    obtain ⟨⟨value, middle⟩, read, closed⟩ := bind_ok others
    obtain ⟨_, shut, last⟩ := bind_ok closed
    cases last
    obtain ⟨front, rfl, spells⟩ := (expr_reads budget (Nat.zero_le _) read).blankBefore.upTo shut
    refine ⟨blank ++ '(' :: (front ++ [')']), ?_, .test isBlank spells⟩
    rw [split, expect_ok opened]
    simp

theorem assignment_reads : (budget : Nat) → {text rest : List Char} → {node : Node} →
    assignment budget text = .ok (node, rest) →
    ∃ front, text = front ++ rest ∧
      ∀ {announced}, Announces .set announced → Spells Visible (.node node) (announced ++ front)
  | 0, _, _, _, done => nomatch done
  | budget + 1, text, rest, node, done => by
    obtain ⟨blank, isBlank, split⟩ := skipBlanks_split text
    unfold assignment at done
    obtain ⟨inner, opened, others⟩ := bind_ok done
    obtain ⟨gap, isGap, apart⟩ := skipBlanks_split inner
    obtain ⟨found, place, others⟩ := bind_ok others
    split at others
    · cases others
    · rename_i root path left
      split at others
      · cases others
      · rename_i assignable
        obtain ⟨behind, equals, others⟩ := bind_ok others
        obtain ⟨⟨value, middle⟩, read, closed⟩ := bind_ok others
        obtain ⟨_, shut, last⟩ := bind_ok closed
        cases last
        obtain ⟨c, target, same, spells⟩ := reference?_reads budget place
        obtain ⟨between, isBetween, parted⟩ := skipBlanks_split left
        obtain ⟨front, rfl, content⟩ :=
          (expr_reads budget (Nat.zero_le _) read).blankBefore.upTo shut
        refine ⟨blank ++ '(' :: (gap ++ c :: (target ++ (between ++ '=' :: (front ++ [')'])))), ?_,
          fun announces => .set announces isBlank isGap (visible_of_skipBlanks same) spells
            (Bool.eq_false_iff.mpr assignable) isBetween content⟩
        rw [split, expect_ok opened, apart, same, parted, expect_ok equals]
        simp

theorem returned_reads : (budget : Nat) → {text rest : List Char} → {node : Node} →
    returned budget text = .ok (node, rest) →
    ∃ front, text = front ++ rest ∧
      ∀ {announced}, Announces .return announced → Spells Visible (.node node) (announced ++ front)
  | 0, _, _, _, done => nomatch done
  | budget + 1, text, rest, node, done => by
    obtain ⟨indent, isIndent, split⟩ := indent_split text
    unfold returned at done
    split at done
    · rename_i inner opened
      obtain ⟨blank, isBlank, apart⟩ := skipBlanks_split inner
      split at done
      · rename_i behind closed
        cases done
        refine ⟨indent ++ '(' :: (blank ++ [')']), ?_, fun announces =>
          .returnEmpty announces isIndent isBlank⟩
        rw [split, opened, apart, closed]
        simp
      · obtain ⟨⟨value, middle⟩, read, closed⟩ := bind_ok done
        obtain ⟨_, shut, last⟩ := bind_ok closed
        cases last
        obtain ⟨front, rfl, spells⟩ :=
          (expr_reads budget (Nat.zero_le _) read).blankBefore.upTo shut
        refine ⟨indent ++ '(' :: (front ++ [')']), ?_, fun announces =>
          .returnValue announces isIndent spells⟩
        rw [split, opened]
        simp
    · cases done
      exact ⟨[], rfl, fun announces => by rw [List.append_nil]; exact .returnNothing announces⟩

theorem loop_reads : (budget : Nat) → {text rest : List Char} → {node : Node} →
    loop budget text = .ok (node, rest) →
    ∃ front, text = front ++ rest ∧
      ∀ {announced}, Announces .foreach announced → Spells Visible (.node node) (announced ++ front)
  | 0, _, _, _, done => nomatch done
  | budget + 1, text, rest, node, done => by
    obtain ⟨blank, isBlank, split⟩ := skipBlanks_split text
    unfold loop at done
    obtain ⟨inner, opened, others⟩ := bind_ok done
    obtain ⟨gap, isGap, apart⟩ := skipBlanks_split inner
    obtain ⟨found, place, others⟩ := bind_ok others
    split at others
    · rename_i root left
      simp only at others
      split at others
      · cases others
      · rename_i behind word
        obtain ⟨⟨list, middle⟩, read, closed⟩ := bind_ok others
        obtain ⟨start, shut, others⟩ := bind_ok closed
        obtain ⟨⟨⟨body, ending⟩, final⟩, inside, last⟩ := bind_ok others
        cases last
        obtain ⟨c, name, same, spells⟩ := reference?_reads budget place
        obtain ⟨between, isBetween, parted⟩ := skipBlanks_split left
        obtain ⟨front, rfl, content⟩ :=
          (expr_reads budget (Nat.zero_le _) read).blankBefore.upTo shut
        obtain ⟨_, block, close, rfl, rfl, spelled, closes⟩ := block_reads budget inside
        refine ⟨blank ++ '(' :: (gap ++ c :: (name ++ (between ++ 'i' :: 'n' ::
            (front ++ ')' :: (block ++ close))))), ?_, fun announces =>
          .foreach announces isBlank isGap (visible_of_skipBlanks same) spells isBetween content
            spelled closes.last⟩
        rw [split, expect_ok opened, apart, same, parted, eatWord?_some word]
        simp
    · cases others
    · cases others

theorem branches_reads : (budget : Nat) → {read : List Branch} → {text rest : List Char} →
    {node : Node} → branches budget read text = .ok (node, rest) →
    ∃ more otherwise front, node = .cond (read.reverse ++ more) otherwise ∧ text = front ++ rest ∧
      Spells Visible (.branches more otherwise) front
  | 0, _, _, _, _, done => nomatch done
  | budget + 1, read, text, rest, node, done => by
    unfold branches at done
    obtain ⟨⟨test, middle⟩, asked, others⟩ := bind_ok done
    obtain ⟨⟨⟨body, ending⟩, left⟩, inside, final⟩ := bind_ok others
    obtain ⟨front, rfl, guard⟩ := condition_reads budget asked
    obtain ⟨_, block, close, rfl, rfl, spells, closes⟩ := block_reads budget inside
    rcases closes.branch with ⟨rfl, turns⟩ | ⟨rfl, turns⟩ | ⟨rfl, ends⟩
    · obtain ⟨more, otherwise, behind, rfl, rfl, below⟩ := branches_reads budget final
      exact ⟨.mk test _ :: more, otherwise, front ++ (block ++ (close ++ behind)), by simp, by simp,
        .nextBranch guard spells turns below⟩
    · obtain ⟨⟨⟨otherwise, _⟩, _⟩, second, last⟩ := bind_ok final
      cases last
      obtain ⟨_, otherBlock, shut, rfl, rfl, below, ends⟩ := block_reads budget second
      exact ⟨[.mk test _], _, front ++ (block ++ (close ++ (otherBlock ++ shut))), by simp,
        by simp, .lastBranch guard spells turns below ends.last⟩
    · cases final
      exact ⟨[.mk test _], [], front ++ (block ++ close), by simp, by simp,
        .onlyBranch guard spells ends⟩

theorem block_reads : (budget : Nat) → {scope : Scope} → {start : Nat} → {nodes all : List Node} →
    {plain text rest : List Char} → {ending : Ending} →
    block budget scope start nodes plain text = .ok ((all, ending), rest) →
    ReadsBlock scope nodes plain text all ending rest
  | 0, _, _, _, _, _, _, _, _, done => nomatch done
  | budget + 1, scope, start, nodes, all, plain, text, rest, ending, done => by
    unfold block at done
    split at done
    · -- the end of the text
      split at done
      · rename_i outermost
        cases done
        exact ⟨[], [], [], flush_reverse nodes plain, rfl, .noNode, .endOfText outermost⟩
      · cases done
    · exact (block_reads budget done).literally (.escaped (.inl rfl))
    · exact (block_reads budget done).literally (.escaped (.inr rfl))
    · -- a comment to the end of the line
      rename_i behind
      obtain ⟨line, isRest, split⟩ := skipLine_split behind
      have read := (block_reads budget done).literally (.lineComment isRest)
      rw [List.cons_append, List.cons_append, ← split] at read
      exact read
    · -- a comment with an end
      split at done
      · rename_i content behind found
        rw [splitAt?_some found]
        simpa using (block_reads budget done).literally (.comment content)
      · cases done
    · -- text that is not looked at
      split at done
      · rename_i content behind found
        rw [splitAt?_some found]
        simpa using (block_reads budget done).literally (.verbatim content)
      · cases done
    · -- a directive
      split at done
      · exact (block_reads budget done).literally (.char _)
      · rename_i directive behind found
        obtain ⟨announced, announces, split⟩ := directive?_some found
        rw [split]
        simp only at done
        split at done
        · obtain ⟨⟨node, left⟩, read, others⟩ := bind_ok done
          obtain ⟨front, rfl, spells⟩ := assignment_reads budget read
          rw [← List.append_assoc]
          exact (block_reads budget others).node (spells announces)
        · obtain ⟨⟨node, left⟩, read, others⟩ := bind_ok done
          obtain ⟨more, otherwise, front, rfl, rfl, spells⟩ := branches_reads budget read
          rw [← List.append_assoc]
          exact (block_reads budget others).node (.cond announces spells)
        · obtain ⟨⟨node, left⟩, read, others⟩ := bind_ok done
          obtain ⟨front, rfl, spells⟩ := loop_reads budget read
          rw [← List.append_assoc]
          exact (block_reads budget others).node (spells announces)
        · exact (block_reads budget done).node (.breakLoop announces)
        · exact (block_reads budget done).node (.stop announces)
        · obtain ⟨⟨node, left⟩, read, others⟩ := bind_ok done
          obtain ⟨front, rfl, spells⟩ := returned_reads budget read
          rw [← List.append_assoc]
          exact (block_reads budget others).node (spells announces)
        · obtain ⟨inner, opened, others⟩ := bind_ok done
          obtain ⟨⟨given, left⟩, read, final⟩ := bind_ok others
          obtain ⟨front, rfl, spells⟩ := arguments_reads budget read
          obtain ⟨blank, isBlank, apart⟩ := skipBlanks_split behind
          rw [apart, expect_ok opened]
          simpa using (block_reads budget final).node (.console announces isBlank spells)
        · split at done
          · rename_i ends
            cases done
            exact ⟨[], [], announced, flush_reverse nodes plain, rfl, .noNode,
              .directive ends announces⟩
          · cases done
    · -- a reference, or a dollar sign that starts none
      obtain ⟨found, read, others⟩ := bind_ok done
      split at others
      · rename_i root path left
        obtain ⟨c, front, same, spells⟩ := reference?_reads budget read
        rw [same]
        cases same
        exact (block_reads budget others).node (.written spells)
      · exact (block_reads budget others).literally (.char _)
    · exact (block_reads budget done).literally (.char _)

end

/-- **An accepted template is spelled by its text**, with something visible in place of the sigil
of every target of an assignment and every loop variable. -/
theorem spells_of_parse {text : List Char} {nodes : List Node} (accepted : parse text = .ok nodes) :
    Spells Visible (.nodes nodes) text := by
  unfold parse at accepted
  obtain ⟨⟨⟨all, ending⟩, rest⟩, read, last⟩ := bind_ok accepted
  cases last
  exact (block_reads _ read).template

end FieldResolver.Template.Parser

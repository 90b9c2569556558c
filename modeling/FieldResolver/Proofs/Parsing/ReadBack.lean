/-
**What is written is read back.**

An expression in its written form is read as this expression and no other one, at every level of
binding. Where its operator binds looser than its place asks for, it stands in parentheses; where it
does not, the parser comes to it from the looser levels, and what follows it decides when each of
them ends.

* `Expr.Written`: the readings of the written form of an expression;
* `Expr.written`, `Expr.allWritten`, `Entry.allWritten`, `Segment.allWritten`: the induction over
  expressions and their parts;
* `parse_assigning`: a template that assigns an expression is parsed into this assignment.
-/

import FieldResolver.Proofs.Parsing.Operands
import FieldResolver.Proofs.Template.Literal

namespace FieldResolver.Template

open FieldResolver.Template.Parser

section

variable (words : Wording) {op : BinaryOp} (left right : Expr) {level : Nat}

/-- How an operator is written with its operands. -/
def operation (words : Wording) (op : BinaryOp) (left right : Expr) : List Char :=
  left.write words op.level ++
    ' ' :: ((words.binary op).text ++ ' ' :: right.write words (op.level + 1))

theorem write_binary_of_le (le : level ≤ op.level) :
    (Expr.binary op left right).write words level = operation words op left right := by
  rw [Expr.write, grouped, if_neg (by simpa using le)]
  rfl

theorem write_binary_of_lt (lt : op.level < level) :
    (Expr.binary op left right).write words level =
      '(' :: ' ' :: (operation words op left right ++ [' ', ')']) := by
  rw [Expr.write, grouped, if_pos (by simpa using lt)]
  rfl

end

/-- Whether the written form of an expression is read as the expression: where an operand is asked
for, and in front of the operators of every level. -/
structure Expr.Written (words : Wording) (value : Expr) : Prop where
  operand : Operand (value.write words levels) value
  leads {level : Nat} (bound : level < levels) : Leads level (value.write words level) value

namespace Expr.Written

variable {words : Wording} {value : Expr}

/-- What is written without a look at the level is so at all of them. -/
theorem of_operand {text : List Char} (operand : Operand text value)
    (same : ∀ level, value.write words level = text) : value.Written words where
  operand := by rwa [same]
  leads bound := by
    rw [same]
    exact operand.leads bound

theorem stands (written : value.Written words) {level : Nat} (bound : level ≤ levels) :
    Stands level (value.write words level) value := by
  rcases Nat.lt_or_eq_of_le bound with below | rfl
  · exact (written.leads below).stands
  · exact written.operand.stands

theorem item (written : value.Written words) (writable : value.Writable) :
    Item (value.write words 0) value :=
  ⟨written.stands (Nat.zero_le _), opening_write words value writable 0⟩

/-- **An operator,** in parentheses at the levels that are tighter than its own. -/
theorem binary {op : BinaryOp} {left right : Expr} (first : left.Written words)
    (second : right.Written words) (writable : (Expr.binary op left right).Writable) :
    (Expr.binary op left right).Written words := by
  have bound := op.level_lt
  have leads := (first.leads bound).binary (words.known op) (second.stands bound)
    (opening_write words right writable.2 _)
  have opening := opening_write words (.binary op left right) writable op.level
  rw [write_binary_of_le words left right (Nat.le_refl _)] at opening
  have operand := (leads.stands.of_le bound.le (Nat.zero_le _)).grouped opening
  -- as an operand it needs its parentheses; a level asks for them if it is tighter than its own
  constructor
  · rwa [write_binary_of_lt words left right bound]
  · intro level below
    rcases Nat.lt_trichotomy level op.level with looser | rfl | tighter
    · rw [write_binary_of_le words left right looser.le]
      exact leads.of_lt bound looser
    · rwa [write_binary_of_le words left right (Nat.le_refl _)]
    · rw [write_binary_of_lt words left right tighter]
      exact operand.leads below

end Expr.Written

mutual

theorem Expr.written (words : Wording) : (value : Expr) → value.Writable → value.Written words
  | .null, _ => .of_operand (operand_constant (by simp [constants])) fun _ => rfl
  | .bool true, _ => .of_operand (operand_constant (by simp [constants])) fun _ => rfl
  | .bool false, _ => .of_operand (operand_constant (by simp [constants])) fun _ => rfl
  | .string text, _ => .of_operand (operand_string text) fun _ => rfl
  | .int value, ⟨positive, fits⟩ => by
    obtain ⟨value, rfl⟩ := Int.eq_ofNat_of_zero_le positive
    exact .of_operand (operand_number (by omega)) fun _ => rfl
  | .reference root segments, ⟨named, writable⟩ => by
    have read := operand_reference named (Segment.allWritten words segments writable)
    rw [String.ofList_toList] at read
    exact .of_operand read fun _ => rfl
  | .list items, writable =>
    .of_operand (operand_list (Expr.allWritten words items writable)) fun _ => rfl
  | .range first last, ⟨low, high⟩ =>
    .of_operand (operand_range ((Expr.written words first low).item low)
      ((Expr.written words last high).item high)) fun _ => rfl
  | .map entries, writable =>
    .of_operand (operand_map (Entry.allWritten words entries writable)) fun _ => rfl
  | .not operand, writable =>
    .of_operand ((Expr.written words operand writable).operand.not words) fun _ => rfl
  | .neg operand, writable =>
    .of_operand (Expr.written words operand writable).operand.neg fun _ => rfl
  | .binary _ left right, writable =>
    .binary (Expr.written words left writable.1) (Expr.written words right writable.2) writable

theorem Expr.allWritten (words : Wording) : (values : List Expr) → Expr.AllWritable values →
    List.Forall₂ Item (Expr.writeAll words values) values
  | [], _ => .nil
  | value :: rest, ⟨writable, others⟩ =>
    .cons ((Expr.written words value writable).item writable) (Expr.allWritten words rest others)

theorem Entry.allWritten (words : Wording) : (entries : List Entry) → Entry.AllWritable entries →
    List.Forall₂ EntryItem (Entry.writeAll words entries) entries
  | [], _ => .nil
  | .mk key value :: rest, ⟨first, second, others⟩ =>
    .cons (.mk ((Expr.written words key first).item first)
      ((Expr.written words value second).item second)) (Entry.allWritten words rest others)

theorem Segment.allWritten (words : Wording) : (segments : List Segment) →
    Segment.AllWritable segments → Follows (Segment.writeAll words segments) segments
  | [], _ => .nil
  | .property label :: rest, ⟨named, others⟩ => by
    have follows := Follows.property named (Segment.allWritten words rest others)
    rwa [String.ofList_toList] at follows
  | .index key :: rest, ⟨writable, others⟩ =>
    .index ((Expr.written words key writable).item writable) (Segment.allWritten words rest others)
  | .method label arguments :: rest, ⟨⟨named, writable⟩, others⟩ => by
    have follows := Follows.method named (Expr.allWritten words arguments writable)
      (Segment.allWritten words rest others)
    rwa [String.ofList_toList] at follows

end

/-! ### Assignments -/

namespace Parser

/-- An assignment to a variable. -/
theorem assignment_name {label : List Char} (named : IsName label) (budget : Nat)
    (text : List Char) :
    assignment (budget + 3) ('(' :: '$' :: (label ++ ' ' :: '=' :: text)) =
      expr (budget + 2) 0 (skipBlanks text) >>= fun found =>
        expect ')' (skipBlanks found.2) >>= fun rest =>
          .ok (.set (String.ofList label) [] found.1, rest) := by
  have stop : ∀ c ∈ (' ' :: '=' :: text).head?, isNameChar c = false := by
    rintro c ⟨⟩
    rfl
  have shut : ∀ c ∈ (' ' :: '=' :: text).head?, c ≠ '.' ∧ c ≠ '[' := by
    rintro c ⟨⟩
    decide
  have target : reference? (budget + 2) ('$' :: (label ++ ' ' :: '=' :: text)) =
      .ok (some ((String.ofList label, []), ' ' :: '=' :: text)) := by
    rw [reference?_name (budget + 1) named stop, segments_end budget [] shut]
    rfl
  have opened : expect '(' (skipBlanks ('(' :: '$' :: (label ++ ' ' :: '=' :: text))) =
      .ok ('$' :: (label ++ ' ' :: '=' :: text)) := rfl
  have visible : skipBlanks ('$' :: (label ++ ' ' :: '=' :: text)) =
      '$' :: (label ++ ' ' :: '=' :: text) := rfl
  rw [assignment, opened]
  show (reference? (budget + 2) (skipBlanks ('$' :: (label ++ ' ' :: '=' :: text))) >>= _) = _
  rw [visible, target]
  rfl

/-- A `#set` with something in parentheses. -/
theorem block_set {budget start : Nat} {nodes : List Node} {plain text rest : List Char}
    {node : Node} (read : assignment budget ('(' :: text) = .ok (node, rest)) :
    block (budget + 1) .template start nodes plain ("#set(".toList ++ text) =
      block budget .template start (node :: flush nodes plain) [] rest := by
  show block (budget + 1) .template start nodes plain ('#' :: 's' :: 'e' :: 't' :: '(' :: text) = _
  have directive : directive? ('#' :: 's' :: 'e' :: 't' :: '(' :: text) =
    some (.set, '(' :: text) := rfl
  rw [block]
  · simp only [directive, read]
    rfl
  all_goals
    intro _ same
    cases same

end Parser

/-- **A template that assigns an expression is parsed into this assignment.** -/
theorem parse_assigning (words : Wording) {value : Expr} (writable : value.Writable) :
    parse (assigning words value) = .ok [.set "v" [] value] := by
  have item := (Expr.written words value writable).item writable
  have ends : Ends [')'] := by
    rintro c ⟨⟩
    exact .inr rfl
  obtain ⟨left, blank, enough, read⟩ :=
    item.stands [')'] ends (loose_of_closing (by decide : Closing ')') 0 [])
  have settles : Settles
      (fun budget => block budget .template (assigning words value).length [] []
        (assigning words value))
      (.ok (([.set "v" [] value], .endOfText), [])) := by
    refine ⟨enough + 4, fun budget room => ?_⟩
    obtain ⟨budget, rfl⟩ : ∃ less, budget = less + 4 := ⟨budget - 4, by omega⟩
    have answer : expr (budget + 2) 0 (value.write words 0 ++ [')']) = .ok (value, left) :=
      read (budget + 2) (by omega)
    have named : IsName ['v'] := ⟨rfl, rfl⟩
    have node := assignment_name named budget (' ' :: (value.write words 0 ++ [')']))
    rw [skipBlanks_opening item.opening, answer] at node
    change _ = expect ')' (skipBlanks left) >>= _ at node
    rw [blank] at node
    exact (block_set node).trans block_end
  exact parse_of_settles settles

namespace Sample

/-- An expression with parentheses that it needs and others that it does not. -/
def value : Expr :=
  .binary .and
    (.not (.binary .le
      (.binary .sub (.binary .sub (.int 1) (.int 2)) (.binary .sub (.int 3) (.neg (.int 4))))
      (.reference "a" [.property "b", .index (.list []), .method "c" [.string "it's", .null]])))
    (.binary .ne (.map [.mk (.string "") (.range (.int 0) (.int 9))]) (.bool true))

theorem writable : value.Writable := by
  have first : IsName "a".toList := ⟨rfl, rfl⟩
  have second : IsName "b".toList := ⟨rfl, rfl⟩
  have third : IsName "c".toList := ⟨rfl, rfl⟩
  simp only [value, Expr.Writable, Expr.AllWritable, Entry.AllWritable, Segment.AllWritable,
    Segment.Writable, first, second, third]
  decide

/-- The template that assigns it. -/
def source : List Char :=
  ("#set($v = ! ( 1 - 2 - ( 3 - - 4 ) <= $a.b[ [ ] ].c( 'it''s' , null ) ) && " ++
    "\x7b '' : [ 0 .. 9 ] \x7d != true)").toList

theorem assigning_value : assigning .symbols value = source := by decide +kernel

theorem reads_back : value.Writable ∧ parse source = .ok [.set "v" [] value] := by
  refine ⟨writable, ?_⟩
  rw [← assigning_value]
  exact parse_assigning .symbols writable

end Sample

end FieldResolver.Template

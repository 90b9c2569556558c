/-
**How expressions are written.**

An expression is written with spaces between its tokens, and in parentheses where its operator binds
looser than its place asks for. The operands of an operator stand at its level, the right one at the
next tighter level, because operators bind to the left.

* `BinaryOp.level`, `Wording`: how tightly operators bind, and how they are spelled;
* `Expr.Writable`: the expressions of the written form, which are those without floating point
  numbers and interpolated strings;
* `Expr.write`, `Segment.writeAll`: the written form;
* `opening_write`: what it starts with.
-/

import FieldResolver.Proofs.Parsing.Scanning
import FieldResolver.Proofs.Decimal.Text

namespace FieldResolver.Template

open FieldResolver.Template.Parser

/-! ### Operators -/

/-- How tightly an operator binds. -/
def BinaryOp.level : BinaryOp → Nat
  | .or => 0
  | .and => 1
  | .eq | .ne => 2
  | .lt | .le | .gt | .ge => 3
  | .add | .sub => 4
  | .mul | .div | .rem => 5

theorem BinaryOp.level_lt (op : BinaryOp) : op.level < levels := by
  cases op <;> decide

/-- A choice among the spellings of the operators. -/
structure Wording where
  binary : BinaryOp → Spelling
  not : Spelling
  known (op : BinaryOp) : (binary op, op) ∈ operators op.level
  negates : not = .symbol ['!'] ∨ not = .word ['n', 'o', 't']

/-- The operators as symbols. -/
def Wording.symbols : Wording where
  binary
    | .or => .symbol ['|', '|']
    | .and => .symbol ['&', '&']
    | .eq => .symbol ['=', '=']
    | .ne => .symbol ['!', '=']
    | .lt => .symbol ['<']
    | .le => .symbol ['<', '=']
    | .gt => .symbol ['>']
    | .ge => .symbol ['>', '=']
    | .add => .symbol ['+']
    | .sub => .symbol ['-']
    | .mul => .symbol ['*']
    | .div => .symbol ['/']
    | .rem => .symbol ['%']
  not := .symbol ['!']
  known op := by cases op <;> simp [operators, BinaryOp.level]
  negates := .inl rfl

/-! ### Expressions that are written -/

mutual

/-- Whether an expression has the written form: it holds no floating point number and no
interpolated string, its numbers are not negative and fit 64 bits, and its names are names. -/
def Expr.Writable : Expr → Prop
  | .null | .bool _ | .string _ => True
  | .float _ | .interpolated _ => False
  | .int value => 0 ≤ value ∧ value < 0x8000000000000000
  | .reference root segments => IsName root.toList ∧ Segment.AllWritable segments
  | .list items => Expr.AllWritable items
  | .range first last => first.Writable ∧ last.Writable
  | .map entries => Entry.AllWritable entries
  | .not operand | .neg operand => operand.Writable
  | .binary _ left right => left.Writable ∧ right.Writable

/-- Whether expressions have the written form. -/
def Expr.AllWritable : List Expr → Prop
  | [] => True
  | item :: rest => item.Writable ∧ Expr.AllWritable rest

/-- Whether the entries of a map have the written form. -/
def Entry.AllWritable : List Entry → Prop
  | [] => True
  | .mk key value :: rest => key.Writable ∧ value.Writable ∧ Entry.AllWritable rest

/-- Whether a segment has the written form. -/
def Segment.Writable : Segment → Prop
  | .property label => IsName label.toList
  | .index key => key.Writable
  | .method label arguments => IsName label.toList ∧ Expr.AllWritable arguments

/-- Whether segments have the written form. -/
def Segment.AllWritable : List Segment → Prop
  | [] => True
  | segment :: rest => segment.Writable ∧ Segment.AllWritable rest

end

/-! ### The written form -/

/-- Texts with a comma in front of each and a space behind every token. -/
def afterCommas (texts : List (List Char)) : List Char :=
  texts.flatMap fun text => ',' :: ' ' :: (text ++ [' '])

/-- Texts with commas in between and a space behind every token. -/
def spaced : List (List Char) → List Char
  | [] => []
  | text :: others => text ++ ' ' :: afterCommas others

/-- An expression in parentheses, if it needs them. -/
def grouped (needed : Bool) (text : List Char) : List Char :=
  if needed then '(' :: ' ' :: (text ++ [' ', ')']) else text

mutual

/-- How an expression is written where one of a level of binding is asked for. -/
def Expr.write (words : Wording) (level : Nat) : Expr → List Char
  | .null => ['n', 'u', 'l', 'l']
  | .bool true => ['t', 'r', 'u', 'e']
  | .bool false => ['f', 'a', 'l', 's', 'e']
  | .int value => Decimal.natDigits value.toNat
  | .string text => inQuotes '\'' text.toList
  | .float _ | .interpolated _ => []
  | .reference root segments => '$' :: (root.toList ++ Segment.writeAll words segments)
  | .list items => '[' :: ' ' :: (spaced (Expr.writeAll words items) ++ [']'])
  | .range first last =>
    '[' :: ' ' :: (first.write words 0 ++
      ' ' :: '.' :: '.' :: ' ' :: (last.write words 0 ++ [' ', ']']))
  | .map entries => '\x7b' :: ' ' :: (spaced (Entry.writeAll words entries) ++ ['\x7d'])
  | .not operand => words.not.text ++ ' ' :: operand.write words levels
  | .neg operand => '-' :: ' ' :: operand.write words levels
  | .binary op left right =>
    grouped (op.level < level) (left.write words op.level ++
      ' ' :: ((words.binary op).text ++ ' ' :: right.write words (op.level + 1)))

/-- How the items of a list and the arguments of a call are written. -/
def Expr.writeAll (words : Wording) : List Expr → List (List Char)
  | [] => []
  | item :: rest => item.write words 0 :: Expr.writeAll words rest

/-- How the entries of a map are written. -/
def Entry.writeAll (words : Wording) : List Entry → List (List Char)
  | [] => []
  | .mk key value :: rest =>
    (key.write words 0 ++ ' ' :: ':' :: ' ' :: value.write words 0) :: Entry.writeAll words rest

/-- How the segments of a reference are written. -/
def Segment.writeAll (words : Wording) : List Segment → List Char
  | [] => []
  | .property label :: rest => '.' :: (label.toList ++ Segment.writeAll words rest)
  | .index key :: rest =>
    '[' :: ' ' :: (key.write words 0 ++ ' ' :: ']' :: Segment.writeAll words rest)
  | .method label arguments :: rest =>
    '.' :: (label.toList ++
      '(' :: ' ' :: (spaced (Expr.writeAll words arguments) ++ ')' :: Segment.writeAll words rest))

end

/-- The template that assigns an expression to a variable. -/
def assigning (words : Wording) (value : Expr) : List Char :=
  "#set($v = ".toList ++ (value.write words 0 ++ [')'])

/-- Whether an expression can start with a character: it is visible and closes no bracket. -/
def Opens (c : Char) : Prop := Visible c ∧ c ≠ ')' ∧ c ≠ ']' ∧ c ≠ '\x7d'

instance (c : Char) : Decidable (Opens c) :=
  inferInstanceAs (Decidable (Text.isBlank c = false ∧ c ≠ ')' ∧ c ≠ ']' ∧ c ≠ '\x7d'))

/-- Whether an expression can start like a text. -/
def Opening (text : List Char) : Prop := ∃ c rest, text = c :: rest ∧ Opens c

theorem opens_of_isDigit {c : Char} (digit : c.isDigit = true) : Opens c := by
  have bounds : 48 ≤ c.toNat ∧ c.toNat ≤ 57 := of_decide_eq_true (Decimal.isDigit_of_isDigit digit)
  refine ⟨?_, ?_, ?_, ?_⟩
  · unfold Visible Text.isBlank
    simp only [Bool.or_eq_false_iff, decide_eq_false_iff_not, beq_eq_false_iff_ne]
    omega
  all_goals
    rintro rfl
    revert bounds
    decide

/-- **What is written starts with a character that an expression can start with.** -/
theorem opening_write (words : Wording) : (value : Expr) → value.Writable → (level : Nat) →
    Opening (value.write words level)
  | .null, _, _ => ⟨_, _, rfl, by decide⟩
  | .bool true, _, _ | .bool false, _, _ => ⟨_, _, rfl, by decide⟩
  | .int value, _, _ => by
    obtain ⟨c, rest, same, digit⟩ := Decimal.head_natDigits value.toNat
    exact ⟨c, rest, same, opens_of_isDigit digit⟩
  | .string text, _, _ => ⟨_, _, rfl, by decide⟩
  | .reference _ _, _, _ | .list _, _, _ | .range _ _, _, _ | .map _, _, _ | .neg _, _, _ =>
    ⟨_, _, rfl, by decide⟩
  | .not _, _, _ => by
    rw [Expr.write]
    rcases words.negates with same | same <;> rw [same] <;> exact ⟨_, _, rfl, by decide⟩
  | .binary op left right, writable, level => by
    rw [Expr.write]
    unfold grouped
    split
    · exact ⟨_, _, rfl, by decide⟩
    · obtain ⟨c, rest, same, opens⟩ := opening_write words left writable.1 op.level
      exact ⟨c, _, by rw [same]; rfl, opens⟩

end FieldResolver.Template

/-
**How references are parsed.**

A reference is its root and what its segments say, and it ends where no segment starts. Inside of
parentheses a reference alone is an expression. The parsers need some budget for that, and more
does not change what they read.

* `IsName`: whether a text is a name;
* `reference?_name`, `segments_property`, `segments_method`, `segments_end`: one part of a
  reference;
* `expr_reference`: a reference in front of a closing parenthesis as an expression;
* `reference?_property`, `reference?_call`: a property of a variable, and a function called with it.
-/

import FieldResolver.Template.Parser

namespace FieldResolver.Template.Parser

/-! ### Names -/

/-- Whether a text is a name. -/
structure IsName (label : List Char) : Prop where
  start : startsName label = true
  inside : label.all isNameChar = true

section

variable {label rest : List Char}

theorem IsName.startsName_append (named : IsName label) (rest : List Char) :
    startsName (label ++ rest) = true := by
  cases label with
  | nil => cases named.start
  | cons c more => exact named.start

/-- A name ends in front of the first character that cannot stand in one. -/
theorem IsName.name_append (named : IsName label)
    (stop : ∀ c ∈ rest.head?, isNameChar c = false) :
    name (label ++ rest) = (String.ofList label, rest) := by
  have none : rest.takeWhile isNameChar = [] ∧ rest.dropWhile isNameChar = rest := by
    cases rest with
    | nil => exact ⟨rfl, rfl⟩
    | cons c more =>
      have outside := stop c rfl
      exact ⟨List.takeWhile_cons_of_neg (by simp [outside]),
        List.dropWhile_cons_of_neg (by simp [outside])⟩
  have inside := List.all_eq_true.mp named.inside
  rw [name, List.takeWhile_append_of_pos inside, List.dropWhile_append_of_pos inside, none.1,
    none.2, List.append_nil]

end

/-! ### Segments -/

section

variable (budget : Nat) (read : List Segment) {label rest : List Char}

theorem segments_end (stop : ∀ c ∈ rest.head?, c ≠ '.' ∧ c ≠ '[') :
    segments (budget + 1) read rest = .ok (read.reverse, rest) := by
  rw [segments]
  · rintro more rfl
    exact (stop '.' rfl).1 rfl
  · rintro more rfl
    exact (stop '[' rfl).2 rfl

theorem segments_property (named : IsName label)
    (stop : ∀ c ∈ rest.head?, isNameChar c = false ∧ c ≠ '(') :
    segments (budget + 1) read ('.' :: (label ++ rest)) =
      segments budget (.property (String.ofList label) :: read) rest := by
  rw [segments]
  simp only [named.startsName_append, if_true,
    named.name_append fun c member => (stop c member).1]
  split
  · exact absurd rfl (stop '(' rfl).2
  · rfl

theorem segments_method (named : IsName label) :
    segments (budget + 1) read ('.' :: (label ++ '(' :: rest)) =
      arguments budget rest >>= fun found =>
        segments budget (.method (String.ofList label) found.1 :: read) found.2 := by
  have stop : ∀ c ∈ ('(' :: rest).head?, isNameChar c = false := by
    rintro c ⟨⟩
    decide
  rw [segments]
  simp only [named.startsName_append, if_true, named.name_append stop]

/-- A name behind the sigil, and the segments behind the name. -/
theorem reference?_name (named : IsName label)
    (stop : ∀ c ∈ rest.head?, isNameChar c = false) :
    reference? (budget + 1) ('$' :: (label ++ rest)) =
      segments budget [] rest >>= fun found =>
        .ok (some ((String.ofList label, found.1), found.2)) := by
  cases label with
  | nil => cases named.start
  | cons c more =>
    have first : isNameStart c = true := named.start
    have noBang : c ≠ '!' := by rintro rfl; cases first
    have noBrace : c ≠ '\x7b' := by rintro rfl; cases first
    have starts : startsName (c :: (more ++ rest)) = true := first
    have read : name (c :: (more ++ rest)) = (String.ofList (c :: more), rest) :=
      named.name_append stop
    rw [List.cons_append, reference?]
    simp only [List.drop_succ_cons, List.drop_zero]
    split
    · rename_i inner braced
      split at braced
      · exact absurd (List.cons.inj ‹_›).1 noBang
      · exact absurd (List.cons.inj braced).1 noBrace
    · split
      · exact absurd (List.cons.inj ‹_›).1 noBang
      · rw [if_pos starts, read]

end

/-! ### Expressions -/

theorem operator?_close (level : Nat) (rest : List Char) :
    operator? level (')' :: rest) = none := by
  match level with
  | 0 | 1 | 2 | 3 | 4 | 5 | _ + 6 => rfl

theorem operands_close (budget level : Nat) (left : Expr) (rest : List Char) :
    operands (budget + 1) level left (')' :: rest) = .ok (left, ')' :: rest) := by
  have visible : skipBlanks (')' :: rest) = ')' :: rest := rfl
  rw [operands]
  simp only [visible, operator?_close]

section

variable {budget : Nat} {text rest : List Char}

/-- An operand alone is an expression of any level; the induction is on how many levels bind
tighter. -/
theorem expr_of_unary {operand : Expr}
    (read : ∀ more, budget ≤ more → unary more text = .ok (operand, ')' :: rest)) (tighter : Nat) :
    ∀ level, level + tighter = levels → ∀ more, budget + tighter + 2 ≤ more →
      expr more level text = .ok (operand, ')' :: rest) := by
  induction tighter with
  | zero =>
    intro level same more room
    obtain ⟨smaller, rfl⟩ : ∃ smaller, more = smaller + 1 := ⟨more - 1, by omega⟩
    rw [expr, if_neg (by omega)]
    exact read smaller (by omega)
  | succ tighter ih =>
    intro level same more room
    obtain ⟨smaller, rfl⟩ : ∃ smaller, more = smaller + 1 + 1 := ⟨more - 2, by omega⟩
    rw [expr, if_pos (by omega), ih (level + 1) (by omega) (smaller + 1) (by omega)]
    exact operands_close smaller level operand rest

/-- A reference in front of a closing parenthesis. -/
theorem expr_reference {root : String} {path : List Segment}
    (read : ∀ more, budget ≤ more →
      reference? more ('$' :: text) = .ok (some ((root, path), ')' :: rest)))
    {more : Nat} (room : budget + 10 ≤ more) :
    expr more 0 ('$' :: text) = .ok (.reference root path, ')' :: rest) := by
  have operand : ∀ more, budget + 2 ≤ more →
      unary more ('$' :: text) = .ok (.reference root path, ')' :: rest) := by
    intro more room
    obtain ⟨smaller, rfl⟩ : ∃ smaller, more = smaller + 1 + 1 := ⟨more - 2, by omega⟩
    have first : unary (smaller + 1 + 1) ('$' :: text) = primary (smaller + 1) ('$' :: text) := by
      rw [unary]
      rfl
    rw [first, primary]
    simp only [read smaller (by omega)]
    rfl
  exact expr_of_unary operand 6 0 rfl more room

/-- An expression that is the only argument of a call. -/
theorem arguments_of_expr {c : Char} {argument : Expr}
    (visible : skipBlanks (c :: text) = c :: text)
    (some : c ≠ ')')
    (read : ∀ more, budget ≤ more → expr more 0 (c :: text) = .ok (argument, ')' :: rest))
    {more : Nat} (room : budget + 2 ≤ more) :
    arguments more (c :: text) = .ok ([argument], rest) := by
  obtain ⟨smaller, rfl⟩ : ∃ smaller, more = smaller + 1 + 1 := ⟨more - 2, by omega⟩
  have single : moreArguments (smaller + 1) [] (c :: text) = .ok ([argument], rest) := by
    rw [moreArguments, visible, read smaller (by omega)]
    rfl
  rw [arguments, visible]
  split
  · exact absurd (List.cons.inj ‹_›).1 some
  · exact single

end

/-! ### Properties and calls -/

section

variable {root label function method rest : List Char}

/-- The text of a property of a variable. -/
def propertyText (root label : List Char) : List Char := '$' :: (root ++ '.' :: label)

/-- A property of a variable in front of a closing parenthesis. -/
theorem reference?_property (rootNamed : IsName root) (labelNamed : IsName label) {more : Nat}
    (room : 3 ≤ more) :
    reference? more (propertyText root label ++ ')' :: rest) =
      .ok (some ((String.ofList root, [.property (String.ofList label)]), ')' :: rest)) := by
  obtain ⟨smaller, rfl⟩ : ∃ smaller, more = smaller + 1 + 1 + 1 := ⟨more - 3, by omega⟩
  have dot : ∀ c ∈ ('.' :: (label ++ ')' :: rest)).head?, isNameChar c = false := by
    rintro c ⟨⟩
    rfl
  have close : ∀ c ∈ (')' :: rest).head?, isNameChar c = false ∧ c ≠ '(' := by
    rintro c ⟨⟩
    decide
  have shut : ∀ c ∈ (')' :: rest).head?, c ≠ '.' ∧ c ≠ '[' := by
    rintro c ⟨⟩
    decide
  have start := reference?_name (smaller + 1 + 1) rootNamed dot
  rw [segments_property (smaller + 1) [] labelNamed close,
    segments_end smaller [.property (String.ofList label)] shut] at start
  rw [propertyText, List.cons_append, List.append_assoc, List.cons_append, start]
  rfl

/-- A property of a variable as an expression in parentheses. -/
theorem expr_property (rootNamed : IsName root) (labelNamed : IsName label) {more : Nat}
    (room : 13 ≤ more) :
    expr more 0 (propertyText root label ++ ')' :: rest) =
      .ok (.reference (String.ofList root) [.property (String.ofList label)], ')' :: rest) := by
  have read : ∀ more, 3 ≤ more → reference? more (propertyText root label ++ ')' :: rest) = _ :=
    fun _ room => reference?_property rootNamed labelNamed room
  exact expr_reference read room

/-- The text of a function of a variable, called with a property of a variable. -/
def callText (function method root label : List Char) : List Char :=
  '$' :: (function ++ '.' :: (method ++ '(' :: (propertyText root label ++ [')'])))

/-- A call with a property of a variable, in front of something that is no segment. -/
theorem reference?_call (functionNamed : IsName function) (methodNamed : IsName method)
    (rootNamed : IsName root) (labelNamed : IsName label)
    (stop : ∀ c ∈ rest.head?, c ≠ '.' ∧ c ≠ '[') {more : Nat} (room : 17 ≤ more) :
    reference? more (callText function method root label ++ rest) =
      .ok (some ((String.ofList function, [.method (String.ofList method)
        [.reference (String.ofList root) [.property (String.ofList label)]]]), rest)) := by
  obtain ⟨smaller, rfl⟩ : ∃ smaller, more = smaller + 1 + 1 + 1 := ⟨more - 3, by omega⟩
  have dot : ∀ c ∈ ('.' :: (method ++ '(' :: (propertyText root label ++ ')' :: rest))).head?,
      isNameChar c = false := by
    rintro c ⟨⟩
    rfl
  have read : ∀ more, 13 ≤ more → expr more 0 (propertyText root label ++ ')' :: rest) = _ :=
    fun _ room => expr_property rootNamed labelNamed room
  have argument : arguments (smaller + 1) (propertyText root label ++ ')' :: rest) =
      .ok ([.reference (String.ofList root) [.property (String.ofList label)]], rest) :=
    arguments_of_expr rfl (by decide) read (by omega)
  have done := segments_end smaller [.method (String.ofList method)
    [.reference (String.ofList root) [.property (String.ofList label)]]] stop
  have whole : callText function method root label ++ rest =
      '$' :: (function ++ '.' :: (method ++ '(' :: (propertyText root label ++ ')' :: rest))) := by
    simp [callText]
  rw [whole, reference?_name (smaller + 1 + 1) functionNamed dot,
    segments_method (smaller + 1) [] methodNamed, argument]
  show (segments (smaller + 1) [.method (String.ofList method)
    [.reference (String.ofList root) [.property (String.ofList label)]]] rest >>= _) = _
  rw [done]
  rfl

end

end FieldResolver.Template.Parser

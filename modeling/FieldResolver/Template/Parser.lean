/-
**From text to syntax.**

Text is scanned once. `$` starts a reference and `#` a directive or a comment; what forms neither
is kept as text, so JSON documents pass through untouched. A backslash in front of `$` or `#` makes
it text, and `#[[ … ]]#` encloses text that is not looked at.

The parsers take the text that is left and return what they read with the text behind it. Those
that call one another take a budget as well, which falls with every call; `parse` starts with more
than any text of its length can use.
-/

import FieldResolver.Template.SyntaxError
import FieldResolver.Decimal.Reading
import FieldResolver.Text.Blank
import FieldResolver.Text.Search

namespace FieldResolver.Template

/-- A parser of a part of a text: what it read, and the text that follows. -/
abbrev Parser (α : Type) := List Char → Except SyntaxError (α × List Char)

namespace Parser

/-- Fails at the first character of `rest`. -/
def fail {α : Type} (cause : SyntaxError.Cause) (rest : List Char) : Except SyntaxError α :=
  .error ⟨cause, rest.length⟩

/-- Drops white space. -/
def skipBlanks (text : List Char) : List Char := Text.trimStart text

/-- Takes one character that has to come next. -/
def expect (wanted : Char) : List Char → Except SyntaxError (List Char)
  | [] => fail (.expected wanted none) []
  | c :: rest => if c = wanted then .ok rest else fail (.expected wanted (some c)) (c :: rest)

/-- The texts in front of and behind the first occurrence of a spelling. -/
def splitAt? (spelling : List Char) : List Char → Option (List Char × List Char)
  | [] => (Text.dropFront? spelling []).map fun rest => ([], rest)
  | c :: rest =>
    match Text.dropFront? spelling (c :: rest) with
    | some behind => some ([], behind)
    | none => (splitAt? spelling rest).map fun (front, behind) => (c :: front, behind)

/-- Whether a character may start a name. -/
def isNameStart (c : Char) : Bool := c.isAlpha || c == '_'

/-- Whether a character may stand in a name. -/
def isNameChar (c : Char) : Bool := c.isAlphanum || c == '_'

/-- Whether a name starts here. -/
def startsName : List Char → Bool
  | c :: _ => isNameStart c
  | [] => false

/-- Takes the longest run of name characters. -/
def name (text : List Char) : String × List Char :=
  (String.ofList (text.takeWhile isNameChar), text.dropWhile isNameChar)

/-- Takes a word that is not the beginning of a longer name. -/
def eatWord? (word : List Char) (text : List Char) : Option (List Char) :=
  match Text.dropFront? word text with
  | some [] => some []
  | some (c :: rest) => if isNameChar c then none else some (c :: rest)
  | none => none

/-- Drops the rest of a line with its line break. -/
def skipLine : List Char → List Char
  | [] => []
  | c :: rest => if c = '\n' then rest else skipLine rest

/-- A directive at a `#`, as `#name` or `#{name}`, with the text behind it. -/
def directive? : List Char → Option (Directive × List Char)
  | '#' :: '\x7b' :: rest =>
    match Directive.ofName? (String.ofList (rest.takeWhile Char.isAlpha)),
        rest.dropWhile Char.isAlpha with
    | some directive, '\x7d' :: behind => some (directive, behind)
    | _, _ => none
  | '#' :: rest =>
    (Directive.ofName? (String.ofList (rest.takeWhile Char.isAlpha))).map fun directive =>
      (directive, rest.dropWhile Char.isAlpha)
  | _ => none

/-- How an operator is written. -/
inductive Spelling where
  | symbol (text : List Char)
  | word (text : List Char)

/-- Takes a spelling if it comes next; a word must end where the spelling does. -/
def Spelling.eat? : Spelling → List Char → Option (List Char)
  | .symbol text, rest => Text.dropFront? text rest
  | .word text, rest => eatWord? text rest

/-- The operators of a level of binding, the loosest being level zero, in the order in which they
are tried. -/
def operators : Nat → List (Spelling × BinaryOp)
  | 0 => [(.symbol ['|', '|'], .or), (.word ['o', 'r'], .or)]
  | 1 => [(.symbol ['&', '&'], .and), (.word ['a', 'n', 'd'], .and)]
  | 2 => [(.symbol ['=', '='], .eq), (.word ['e', 'q'], .eq),
      (.symbol ['!', '='], .ne), (.word ['n', 'e'], .ne)]
  | 3 => [(.symbol ['<', '='], .le), (.word ['l', 'e'], .le),
      (.symbol ['>', '='], .ge), (.word ['g', 'e'], .ge),
      (.symbol ['<'], .lt), (.word ['l', 't'], .lt),
      (.symbol ['>'], .gt), (.word ['g', 't'], .gt)]
  | 4 => [(.symbol ['+'], .add), (.symbol ['-'], .sub)]
  | 5 => [(.symbol ['*'], .mul), (.symbol ['/'], .div), (.symbol ['%'], .rem)]
  | _ => []

/-- How many levels of binding there are. -/
def levels : Nat := 6

/-- An operator of a level, with the text behind it. -/
def operator? (level : Nat) (text : List Char) : Option (BinaryOp × List Char) :=
  (operators level).findSome? fun (spelling, op) => (spelling.eat? text).map fun rest => (op, rest)

/-- A string behind its opening quote; a doubled quote stands for one. -/
def quoted? (quote : Char) (read : List Char) : List Char → Option (List Char × List Char)
  | [] => none
  | c :: rest =>
    if c = quote then
      match rest with
      | [] => some (read.reverse, [])
      | d :: more => if d = quote then quoted? quote (quote :: read) more
        else some (read.reverse, d :: more)
    else quoted? quote (c :: read) rest

/-- Digits, with a fraction if a point and a digit follow; a whole number must fit 64 bits. -/
def number : Parser Expr := fun text =>
  let whole := text.takeWhile Decimal.isDigit
  let rest := text.dropWhile Decimal.isDigit
  let integer : Except SyntaxError (Expr × List Char) :=
    let value := Decimal.natOfDigits whole 0
    if value < 0x8000000000000000 then .ok (.int value, rest)
    else fail (.integerRange (String.ofList whole)) text
  match rest with
  | '.' :: d :: more =>
    if Decimal.isDigit d then
      let fraction := (d :: more).takeWhile Decimal.isDigit
      .ok (.float (Decimal.nearest (Decimal.natOfDigits (whole ++ fraction) 0) (-fraction.length)),
        (d :: more).dropWhile Decimal.isDigit)
    else integer
  | _ => integer

/-- A word that stands for a value, or an error at the character that starts no expression. -/
def constant (text : List Char) : Except SyntaxError (Expr × List Char) :=
  match eatWord? ['t', 'r', 'u', 'e'] text with
  | some rest => .ok (.bool true, rest)
  | none =>
    match eatWord? ['f', 'a', 'l', 's', 'e'] text with
    | some rest => .ok (.bool false, rest)
    | none =>
      match eatWord? ['n', 'u', 'l', 'l'] text with
      | some rest => .ok (.null, rest)
      | none => match text with
        | [] => fail .endInExpression []
        | c :: rest => fail (.unexpectedInExpression c) (c :: rest)

/-- What may end a block. -/
inductive Ending where
  | endOfText
  | elseif
  | else
  | end
deriving DecidableEq

/-- Which blocks are open: none, a branch that may be followed by others, or a last one. -/
inductive Scope where
  | template
  | branch
  | last
deriving DecidableEq

/-- How a directive ends a block of a scope, if it does. -/
def Scope.ending? : Scope → Directive → Option Ending
  | .branch, .elseif => some .elseif
  | .branch, .else => some .else
  | .branch, .end => some .end
  | .last, .end => some .end
  | _, _ => none

/-- Adds the text read so far to the nodes, the latest first; no text adds no node. -/
def flush (nodes : List Node) (text : List Char) : List Node :=
  if text.isEmpty then nodes else .text (String.ofList text.reverse) :: nodes

/-- The value of a string in double quotes: text if its nodes are no more than that. -/
def interpolation : List Node → Expr
  | [] => .string ""
  | [.text text] => .string text
  | nodes => .interpolated nodes

/-- Whether the last segment is a method call. -/
def endsInMethod (segments : List Segment) : Bool :=
  match segments.getLast? with
  | some (.method ..) => true
  | _ => false

mutual

/-- An expression of a level of binding or a tighter one. -/
def expr (budget level : Nat) (text : List Char) : Except SyntaxError (Expr × List Char) :=
  match budget with
  | 0 => fail .budget text
  | budget + 1 =>
    if level < levels then do
      let (left, rest) ← expr budget (level + 1) text
      operands budget level left rest
    else unary budget text

/-- The operators of a level and their right operands, which bind to the left. -/
def operands (budget level : Nat) (left : Expr) (text : List Char) :
    Except SyntaxError (Expr × List Char) :=
  match budget with
  | 0 => fail .budget text
  | budget + 1 =>
    let text := skipBlanks text
    match operator? level text with
    | none => .ok (left, text)
    | some (op, rest) => do
      let (right, rest) ← expr budget (level + 1) (skipBlanks rest)
      operands budget level (.binary op left right) rest

/-- An operand with the negations in front of it. -/
def unary (budget : Nat) (text : List Char) : Except SyntaxError (Expr × List Char) :=
  match budget with
  | 0 => fail .budget text
  | budget + 1 =>
    match skipBlanks text with
    | '!' :: rest =>
      if rest.head? = some '=' then primary budget ('!' :: rest)
      else do
        let (operand, rest) ← unary budget rest
        .ok (.not operand, rest)
    | '-' :: rest => do
      let (operand, rest) ← unary budget rest
      .ok (.neg operand, rest)
    | text =>
      match eatWord? ['n', 'o', 't'] text with
      | some rest => do
        let (operand, rest) ← unary budget rest
        .ok (.not operand, rest)
      | none => primary budget text

/-- An operand: a reference, a string, a list or range, a map, an expression in parentheses, a
number or a constant. -/
def primary (budget : Nat) (text : List Char) : Except SyntaxError (Expr × List Char) :=
  match budget with
  | 0 => fail .budget text
  | budget + 1 =>
    match text with
    | [] => fail .endInExpression []
    | c :: rest =>
      match c with
      | '$' => do
        match ← reference? budget text with
        | some ((root, segments), rest) => .ok (.reference root segments, rest)
        | none => fail .loneDollar text
      | '\'' =>
        match quoted? '\'' [] rest with
        | some (read, rest) => .ok (.string (String.ofList read), rest)
        | none => fail .unterminatedString text
      | '"' =>
        match quoted? '"' [] rest with
        | some (read, rest) =>
          if read.any (fun c => c == '$' || c == '#') then
            match block budget .template read.length [] [] read with
            | .ok ((nodes, _), _) => .ok (interpolation nodes, rest)
            | .error error => fail (.inString error.cause) text
          else .ok (.string (String.ofList read), rest)
        | none => fail .unterminatedString text
      | '[' => listOrRange budget rest
      | '\x7b' => do
        let rest := skipBlanks rest
        match rest with
        | '\x7d' :: rest => .ok (.map [], rest)
        | _ =>
          let (entries, rest) ← entries budget [] rest
          .ok (.map entries, rest)
      | '(' => do
        let (inner, rest) ← expr budget 0 (skipBlanks rest)
        let rest ← expect ')' (skipBlanks rest)
        .ok (inner, rest)
      | c => if Decimal.isDigit c then number text else constant text

/-- A list or a range behind its opening bracket. -/
def listOrRange (budget : Nat) (text : List Char) : Except SyntaxError (Expr × List Char) :=
  match budget with
  | 0 => fail .budget text
  | budget + 1 =>
    match skipBlanks text with
    | ']' :: rest => .ok (.list [], rest)
    | text => do
      let (first, rest) ← expr budget 0 text
      match Text.dropFront? ['.', '.'] (skipBlanks rest) with
      | some rest =>
        let (last, rest) ← expr budget 0 (skipBlanks rest)
        let rest ← expect ']' (skipBlanks rest)
        .ok (.range first last, rest)
      | none =>
        let (items, rest) ← items budget [first] rest
        .ok (.list items, rest)

/-- The items of a list behind those read so far, the latest first. -/
def items (budget : Nat) (read : List Expr) (text : List Char) :
    Except SyntaxError (List Expr × List Char) :=
  match budget with
  | 0 => fail .budget text
  | budget + 1 =>
    match skipBlanks text with
    | ',' :: rest => do
      let (item, rest) ← expr budget 0 (skipBlanks rest)
      items budget (item :: read) rest
    | ']' :: rest => .ok (read.reverse, rest)
    | text => fail .listSeparator text

/-- The entries of a map behind those read so far, the latest first. -/
def entries (budget : Nat) (read : List Entry) (text : List Char) :
    Except SyntaxError (List Entry × List Char) :=
  match budget with
  | 0 => fail .budget text
  | budget + 1 => do
    let (key, rest) ← expr budget 0 (skipBlanks text)
    let rest ← expect ':' (skipBlanks rest)
    let (value, rest) ← expr budget 0 (skipBlanks rest)
    match skipBlanks rest with
    | ',' :: rest => entries budget (.mk key value :: read) rest
    | '\x7d' :: rest => .ok ((Entry.mk key value :: read).reverse, rest)
    | text => fail .mapSeparator text

/-- The arguments of a call behind the opening parenthesis, through the closing one. -/
def arguments (budget : Nat) (text : List Char) : Except SyntaxError (List Expr × List Char) :=
  match budget with
  | 0 => fail .budget text
  | budget + 1 =>
    match skipBlanks text with
    | ')' :: rest => .ok ([], rest)
    | text => moreArguments budget [] text

/-- At least one argument behind those read so far, the latest first. -/
def moreArguments (budget : Nat) (read : List Expr) (text : List Char) :
    Except SyntaxError (List Expr × List Char) :=
  match budget with
  | 0 => fail .budget text
  | budget + 1 => do
    let (argument, rest) ← expr budget 0 (skipBlanks text)
    match skipBlanks rest with
    | ',' :: rest => moreArguments budget (argument :: read) rest
    | ')' :: rest => .ok ((argument :: read).reverse, rest)
    | text => fail .argumentSeparator text

/-- A reference whose sigil is the first character, as `$name`, `$!name`, `${name}` or `$!{name}`
with segments; nothing if no name follows. The sigil itself has been looked at before. -/
def reference? (budget : Nat) (text : List Char) :
    Except SyntaxError (Option ((String × List Segment) × List Char)) :=
  match budget with
  | 0 => fail .budget text
  | budget + 1 =>
    let quiet := match text.drop 1 with
      | '!' :: rest => rest
      | rest => rest
    match quiet with
    | '\x7b' :: inner =>
      if startsName inner then do
        let (root, rest) := name inner
        let (path, rest) ← segments budget [] rest
        match rest with
        | '\x7d' :: rest => .ok (some ((root, path), rest))
        | _ => fail .unterminatedReference text
      else .ok none
    | inner =>
      if startsName inner then do
        let (root, rest) := name inner
        let (path, rest) ← segments budget [] rest
        .ok (some ((root, path), rest))
      else .ok none

/-- The segments of a reference behind those read so far, the latest first. -/
def segments (budget : Nat) (read : List Segment) (text : List Char) :
    Except SyntaxError (List Segment × List Char) :=
  match budget with
  | 0 => fail .budget text
  | budget + 1 =>
    match text with
    | '.' :: rest =>
      if startsName rest then
        let (label, rest) := name rest
        match rest with
        | '(' :: rest => do
          let (arguments, rest) ← arguments budget rest
          segments budget (.method label arguments :: read) rest
        | rest => segments budget (.property label :: read) rest
      else .ok (read.reverse, text)
    | '[' :: rest => do
      let (key, rest) ← expr budget 0 (skipBlanks rest)
      let rest ← expect ']' (skipBlanks rest)
      segments budget (.index key :: read) rest
    | _ => .ok (read.reverse, text)

/-- A condition in parentheses. -/
def condition (budget : Nat) (text : List Char) : Except SyntaxError (Expr × List Char) :=
  match budget with
  | 0 => fail .budget text
  | budget + 1 => do
    let rest ← expect '(' (skipBlanks text)
    let (test, rest) ← expr budget 0 (skipBlanks rest)
    let rest ← expect ')' (skipBlanks rest)
    .ok (test, rest)

/-- The target and the value of an assignment. -/
def assignment (budget : Nat) (text : List Char) : Except SyntaxError (Node × List Char) :=
  match budget with
  | 0 => fail .budget text
  | budget + 1 => do
    let rest ← expect '(' (skipBlanks text)
    let start := skipBlanks rest
    match ← reference? budget start with
    | none => fail .setTarget start
    | some ((root, path), rest) =>
      if endsInMethod path then fail .setMethodCall start
      else
        let rest ← expect '=' (skipBlanks rest)
        let (value, rest) ← expr budget 0 (skipBlanks rest)
        let rest ← expect ')' (skipBlanks rest)
        .ok (.set root path value, rest)

/-- The optional value of a `#return`, which has to start on the same line. -/
def returned (budget : Nat) (text : List Char) : Except SyntaxError (Node × List Char) :=
  match budget with
  | 0 => fail .budget text
  | budget + 1 =>
    match text.dropWhile (fun c => c == ' ' || c == '\t') with
    | '(' :: rest =>
      match skipBlanks rest with
      | ')' :: rest => .ok (.returnValue .null, rest)
      | rest => do
        let (value, rest) ← expr budget 0 rest
        let rest ← expect ')' (skipBlanks rest)
        .ok (.returnValue value, rest)
    | _ => .ok (.returnValue .null, text)

/-- The head and the body of a loop. -/
def loop (budget : Nat) (text : List Char) : Except SyntaxError (Node × List Char) :=
  match budget with
  | 0 => fail .budget text
  | budget + 1 => do
    let rest ← expect '(' (skipBlanks text)
    let start := skipBlanks rest
    match ← reference? budget start with
    | some ((root, []), rest) =>
      let rest := skipBlanks rest
      match eatWord? ['i', 'n'] rest with
      | none => fail .missingIn rest
      | some rest =>
        let (list, rest) ← expr budget 0 (skipBlanks rest)
        let rest ← expect ')' (skipBlanks rest)
        let ((body, _), rest) ← block budget .last rest.length [] [] rest
        .ok (.foreach root list body, rest)
    | some (_, rest) => fail .loopVariable rest
    | none => fail .loopVariable start

/-- The branches of a conditional behind those read so far, the latest first, starting at the
condition of the next one. -/
def branches (budget : Nat) (read : List Branch) (text : List Char) :
    Except SyntaxError (Node × List Char) :=
  match budget with
  | 0 => fail .budget text
  | budget + 1 => do
    let (test, rest) ← condition budget text
    let ((body, ending), rest) ← block budget .branch rest.length [] [] rest
    match ending with
    | .elseif => branches budget (.mk test body :: read) rest
    | .else =>
      let ((otherwise, _), rest) ← block budget .last rest.length [] [] rest
      .ok (.cond (Branch.mk test body :: read).reverse otherwise, rest)
    | _ => .ok (.cond (Branch.mk test body :: read).reverse [], rest)

/-- The nodes of a block behind those read so far, the latest first, through the directive that
ends it. `start` tells where the block began, and `plain` is the text read since the last node,
its latest character first. -/
def block (budget : Nat) (scope : Scope) (start : Nat) (nodes : List Node) (plain : List Char)
    (text : List Char) : Except SyntaxError ((List Node × Ending) × List Char) :=
  match budget with
  | 0 => fail .budget text
  | budget + 1 =>
    match text with
    | [] =>
      if scope = .template then .ok (((flush nodes plain).reverse, .endOfText), [])
      else .error ⟨.missingEnd, start⟩
    | '\\' :: '$' :: rest => block budget scope start nodes ('$' :: plain) rest
    | '\\' :: '#' :: rest => block budget scope start nodes ('#' :: plain) rest
    | '#' :: '#' :: rest => block budget scope start nodes plain (skipLine rest)
    | '#' :: '*' :: rest =>
      match splitAt? ['*', '#'] rest with
      | some (_, rest) => block budget scope start nodes plain rest
      | none => fail .unterminatedComment text
    | '#' :: '[' :: '[' :: rest =>
      match splitAt? [']', ']', '#'] rest with
      | some (verbatim, rest) => block budget scope start nodes (verbatim.reverse ++ plain) rest
      | none => fail .unterminatedVerbatim text
    | '#' :: rest =>
      match directive? ('#' :: rest) with
      | none => block budget scope start nodes ('#' :: plain) rest
      | some (directive, rest) =>
        let nodes := flush nodes plain
        match directive with
        | .set => do
          let (node, rest) ← assignment budget rest
          block budget scope start (node :: nodes) [] rest
        | .if => do
          let (node, rest) ← branches budget [] rest
          block budget scope start (node :: nodes) [] rest
        | .foreach => do
          let (node, rest) ← loop budget rest
          block budget scope start (node :: nodes) [] rest
        | .break => block budget scope start (.breakLoop :: nodes) [] rest
        | .stop => block budget scope start (.stop :: nodes) [] rest
        | .return => do
          let (node, rest) ← returned budget rest
          block budget scope start (node :: nodes) [] rest
        | .console => do
          let rest ← expect '(' (skipBlanks rest)
          let (arguments, rest) ← arguments budget rest
          block budget scope start (.console arguments :: nodes) [] rest
        | closing =>
          match scope.ending? closing with
          | some ending => .ok ((nodes.reverse, ending), rest)
          | none => fail (.unexpectedDirective closing) text
    | '$' :: rest => do
      match ← reference? budget ('$' :: rest) with
      | some ((root, path), behind) =>
        block budget scope start (.reference root path :: flush nodes plain) [] behind
      | none => block budget scope start nodes ('$' :: plain) rest
    | c :: rest => block budget scope start nodes (c :: plain) rest

end

/-- A budget that no text of a length uses up. -/
def budgetFor (length : Nat) : Nat := 16 * (length + 2)

end Parser

/-- The nodes of a template's text. -/
def parse (text : List Char) : Except SyntaxError (List Node) := do
  let ((nodes, _), _) ← Parser.block (Parser.budgetFor text.length) .template text.length [] [] text
  .ok nodes

end FieldResolver.Template

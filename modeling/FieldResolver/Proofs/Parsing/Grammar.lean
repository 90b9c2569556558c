/-
**The grammar of templates.**

A relation between the parts of a template and the texts that spell them. White space may stand
around every expression; operators bind to the left, level by level; a reference is a sigil and what
the text behind it says. Where a reference is written as text or in an expression its sigil is `$`.
What may stand for the sigil of the target of a `#set` and of the variable of a `#foreach` is left
open, since this is what a parser may be lax about.

* `Phrase`: the kinds of parts of a template;
* `Literally`: the pieces of a template that are text, with what they stand for;
* `Spells`: which texts spell a part;
* `Spells.blankBefore_items`, `Spells.blankBefore_entries`: white space in front of several parts.
-/

import FieldResolver.Proofs.Parsing.Scanning

namespace FieldResolver.Template

open FieldResolver.Template.Parser

/-- A part of a template, by what it is read as. -/
inductive Phrase where
  /-- An expression of a level of binding. -/
  | expr (level : Nat) (expr : Expr)
  /-- Expressions with commas between them, at least one. -/
  | items (items : List Expr)
  /-- The entries of a map, at least one. -/
  | entries (entries : List Entry)
  /-- The arguments of a call behind the opening parenthesis, through the closing one. -/
  | arguments (arguments : List Expr)
  /-- The segments of a reference. -/
  | path (segments : List Segment)
  /-- A reference behind its sigil. -/
  | reference (root : String) (segments : List Segment)
  /-- A condition in parentheses. -/
  | condition (test : Expr)
  /-- A conditional behind its `#if`, through its `#end`. -/
  | branches (branches : List Branch) (otherwise : List Node)
  /-- A reference or a directive. -/
  | node (node : Node)
  /-- A template or a block of it. -/
  | nodes (nodes : List Node)

/-- The pieces of a template that are text or nothing: the text that they stand for, and how they
are spelled. -/
inductive Literally : List Char → List Char → Prop
  | char (c : Char) : Literally [c] [c]
  | escaped {c : Char} (special : c = '$' ∨ c = '#') : Literally [c] ['\\', c]
  | lineComment {line : List Char} (rest : LineRest line) : Literally [] ('#' :: '#' :: line)
  | comment (content : List Char) : Literally [] ('#' :: '*' :: (content ++ ['*', '#']))
  | verbatim (content : List Char) :
    Literally content ('#' :: '[' :: '[' :: (content ++ [']', ']', '#']))

/-- Nodes with text in front of them; text in front of text is one node. -/
def withText (plain : List Char) (nodes : List Node) : List Node :=
  if plain.isEmpty then nodes
  else match nodes with
    | .text text :: rest => .text (String.ofList (plain ++ text.toList)) :: rest
    | nodes => .text (String.ofList plain) :: nodes

/-- Whether a text may stand between a directive and a parenthesis on the same line. -/
def Indent (text : List Char) : Prop := ∀ c ∈ text, c = ' ' ∨ c = '\t'

/-- Which texts spell a part of a template, where `sigil` tells what may stand in front of the
target of an assignment and of a loop variable. -/
inductive Spells (sigil : Char → Prop) : Phrase → List Char → Prop
  -- Expressions
  | blankBefore {level : Nat} {expr : Expr} {blank text : List Char} (isBlank : Blanks blank)
    (below : Spells sigil (.expr level expr) text) :
    Spells sigil (.expr level expr) (blank ++ text)
  | blankBehind {level : Nat} {expr : Expr} {text blank : List Char} (isBlank : Blanks blank)
    (below : Spells sigil (.expr level expr) text) :
    Spells sigil (.expr level expr) (text ++ blank)
  | tighter {level : Nat} {expr : Expr} {text : List Char}
    (below : Spells sigil (.expr (level + 1) expr) text) :
    Spells sigil (.expr level expr) text
  | binary {level : Nat} {op : BinaryOp} {spelling : Spelling} {left right : Expr}
    {front behind : List Char} (spelled : (spelling, op) ∈ operators level)
    (first : Spells sigil (.expr level left) front)
    (second : Spells sigil (.expr (level + 1) right) behind) :
    Spells sigil (.expr level (.binary op left right)) (front ++ (spelling.text ++ behind))
  | not {operand : Expr} {text word : List Char} (spelled : word = ['!'] ∨ word = ['n', 'o', 't'])
    (below : Spells sigil (.expr levels operand) text) :
    Spells sigil (.expr levels (.not operand)) (word ++ text)
  | neg {operand : Expr} {text : List Char} (below : Spells sigil (.expr levels operand) text) :
    Spells sigil (.expr levels (.neg operand)) ('-' :: text)
  | reference {root : String} {path : List Segment} {text : List Char}
    (below : Spells sigil (.reference root path) text) :
    Spells sigil (.expr levels (.reference root path)) ('$' :: text)
  | string {quote : Char} (content : List Char) (known : quote = '\'' ∨ quote = '"') :
    Spells sigil (.expr levels (.string (String.ofList content))) (inQuotes quote content)
  | interpolation {content : List Char} {nodes : List Node}
    (below : Spells sigil (.nodes nodes) content) :
    Spells sigil (.expr levels (interpolation nodes)) (inQuotes '"' content)
  | emptyList {blank : List Char} (isBlank : Blanks blank) :
    Spells sigil (.expr levels (.list [])) ('[' :: (blank ++ [']']))
  | list {items : List Expr} {text : List Char} (below : Spells sigil (.items items) text) :
    Spells sigil (.expr levels (.list items)) ('[' :: (text ++ [']']))
  | range {first last : Expr} {front behind : List Char}
    (start : Spells sigil (.expr 0 first) front) (stop : Spells sigil (.expr 0 last) behind) :
    Spells sigil (.expr levels (.range first last))
      ('[' :: (front ++ ('.' :: '.' :: (behind ++ [']']))))
  | emptyMap {blank : List Char} (isBlank : Blanks blank) :
    Spells sigil (.expr levels (.map [])) ('\x7b' :: (blank ++ ['\x7d']))
  | map {entries : List Entry} {text : List Char} (below : Spells sigil (.entries entries) text) :
    Spells sigil (.expr levels (.map entries)) ('\x7b' :: (text ++ ['\x7d']))
  | parentheses {inner : Expr} {text : List Char} (below : Spells sigil (.expr 0 inner) text) :
    Spells sigil (.expr levels inner) ('(' :: (text ++ [')']))
  | number {value : Expr} {text : List Char} (numeral : Numeral value text) :
    Spells sigil (.expr levels value) text
  | constant {value : Expr} {word : List Char} (known : (word, value) ∈ constants) :
    Spells sigil (.expr levels value) word
  -- Parts of expressions
  | lastItem {item : Expr} {text : List Char} (below : Spells sigil (.expr 0 item) text) :
    Spells sigil (.items [item]) text
  | nextItem {item : Expr} {items : List Expr} {text rest : List Char}
    (here : Spells sigil (.expr 0 item) text) (below : Spells sigil (.items items) rest) :
    Spells sigil (.items (item :: items)) (text ++ ',' :: rest)
  | lastEntry {key value : Expr} {front behind : List Char}
    (label : Spells sigil (.expr 0 key) front) (content : Spells sigil (.expr 0 value) behind) :
    Spells sigil (.entries [.mk key value]) (front ++ ':' :: behind)
  | nextEntry {key value : Expr} {entries : List Entry} {front behind rest : List Char}
    (label : Spells sigil (.expr 0 key) front) (content : Spells sigil (.expr 0 value) behind)
    (below : Spells sigil (.entries entries) rest) :
    Spells sigil (.entries (.mk key value :: entries)) (front ++ ':' :: (behind ++ ',' :: rest))
  | noArguments {blank : List Char} (isBlank : Blanks blank) :
    Spells sigil (.arguments []) (blank ++ [')'])
  | arguments {items : List Expr} {text : List Char} (below : Spells sigil (.items items) text) :
    Spells sigil (.arguments items) (text ++ [')'])
  -- References
  | noSegment : Spells sigil (.path []) []
  | property {label : List Char} {path : List Segment} {rest : List Char} (named : IsName label)
    (below : Spells sigil (.path path) rest) :
    Spells sigil (.path (.property (String.ofList label) :: path)) ('.' :: (label ++ rest))
  | method {label : List Char} {items : List Expr} {path : List Segment} {text rest : List Char}
    (named : IsName label) (given : Spells sigil (.arguments items) text)
    (below : Spells sigil (.path path) rest) :
    Spells sigil (.path (.method (String.ofList label) items :: path))
      ('.' :: (label ++ '(' :: (text ++ rest)))
  | index {key : Expr} {path : List Segment} {text rest : List Char}
    (inside : Spells sigil (.expr 0 key) text) (below : Spells sigil (.path path) rest) :
    Spells sigil (.path (.index key :: path)) ('[' :: (text ++ ']' :: rest))
  | quiet {root : String} {path : List Segment} {text : List Char}
    (below : Spells sigil (.reference root path) text) :
    Spells sigil (.reference root path) ('!' :: text)
  | bare {label : List Char} {path : List Segment} {text : List Char} (named : IsName label)
    (below : Spells sigil (.path path) text) :
    Spells sigil (.reference (String.ofList label) path) (label ++ text)
  | braced {label : List Char} {path : List Segment} {text : List Char} (named : IsName label)
    (below : Spells sigil (.path path) text) :
    Spells sigil (.reference (String.ofList label) path) ('\x7b' :: (label ++ (text ++ ['\x7d'])))
  -- Nodes
  | written {root : String} {path : List Segment} {text : List Char}
    (below : Spells sigil (.reference root path) text) :
    Spells sigil (.node (.reference root path)) ('$' :: text)
  | set {announced blank gap target between value : List Char} {c : Char} {root : String}
    {path : List Segment} {expr : Expr} (announces : Announces .set announced)
    (isBlank : Blanks blank) (isGap : Blanks gap) (stands : sigil c)
    (place : Spells sigil (.reference root path) target) (assignable : endsInMethod path = false)
    (isBetween : Blanks between) (content : Spells sigil (.expr 0 expr) value) :
    Spells sigil (.node (.set root path expr))
      (announced ++ (blank ++
        '(' :: (gap ++ c :: (target ++ (between ++ '=' :: (value ++ [')']))))))
  | cond {announced text : List Char} {branches : List Branch} {otherwise : List Node}
    (announces : Announces .if announced)
    (below : Spells sigil (.branches branches otherwise) text) :
    Spells sigil (.node (.cond branches otherwise)) (announced ++ text)
  | foreach {announced blank gap name between list block close : List Char} {c : Char}
    {root : String} {items : Expr} {body : List Node} (announces : Announces .foreach announced)
    (isBlank : Blanks blank) (isGap : Blanks gap) (stands : sigil c)
    (place : Spells sigil (.reference root []) name) (isBetween : Blanks between)
    (content : Spells sigil (.expr 0 items) list) (inside : Spells sigil (.nodes body) block)
    (closes : Announces .end close) :
    Spells sigil (.node (.foreach root items body))
      (announced ++ (blank ++ '(' :: (gap ++ c :: (name ++ (between ++ 'i' :: 'n' ::
        (list ++ ')' :: (block ++ close)))))))
  | breakLoop {announced : List Char} (announces : Announces .break announced) :
    Spells sigil (.node .breakLoop) announced
  | stop {announced : List Char} (announces : Announces .stop announced) :
    Spells sigil (.node .stop) announced
  | returnNothing {announced : List Char} (announces : Announces .return announced) :
    Spells sigil (.node (.returnValue .null)) announced
  | returnEmpty {announced indent blank : List Char} (announces : Announces .return announced)
    (isIndent : Indent indent) (isBlank : Blanks blank) :
    Spells sigil (.node (.returnValue .null)) (announced ++ (indent ++ '(' :: (blank ++ [')'])))
  | returnValue {announced indent text : List Char} {value : Expr}
    (announces : Announces .return announced) (isIndent : Indent indent)
    (below : Spells sigil (.expr 0 value) text) :
    Spells sigil (.node (.returnValue value)) (announced ++ (indent ++ '(' :: (text ++ [')'])))
  | console {announced blank text : List Char} {items : List Expr}
    (announces : Announces .console announced) (isBlank : Blanks blank)
    (given : Spells sigil (.arguments items) text) :
    Spells sigil (.node (.console items)) (announced ++ (blank ++ '(' :: text))
  -- Blocks
  | test {blank text : List Char} {test : Expr} (isBlank : Blanks blank)
    (below : Spells sigil (.expr 0 test) text) :
    Spells sigil (.condition test) (blank ++ '(' :: (text ++ [')']))
  | onlyBranch {test : Expr} {body : List Node} {front block close : List Char}
    (guard : Spells sigil (.condition test) front) (inside : Spells sigil (.nodes body) block)
    (closes : Announces .end close) :
    Spells sigil (.branches [.mk test body] []) (front ++ (block ++ close))
  | lastBranch {test : Expr} {body otherwise : List Node}
    {front block middle final close : List Char}
    (guard : Spells sigil (.condition test) front) (inside : Spells sigil (.nodes body) block)
    (turns : Announces .else middle) (below : Spells sigil (.nodes otherwise) final)
    (closes : Announces .end close) :
    Spells sigil (.branches [.mk test body] otherwise)
      (front ++ (block ++ (middle ++ (final ++ close))))
  | nextBranch {test : Expr} {body otherwise : List Node} {branches : List Branch}
    {front block middle rest : List Char}
    (guard : Spells sigil (.condition test) front) (inside : Spells sigil (.nodes body) block)
    (turns : Announces .elseif middle) (below : Spells sigil (.branches branches otherwise) rest) :
    Spells sigil (.branches (.mk test body :: branches) otherwise)
      (front ++ (block ++ (middle ++ rest)))
  | noNode : Spells sigil (.nodes []) []
  | literally {plain text rest : List Char} {nodes : List Node} (piece : Literally plain text)
    (below : Spells sigil (.nodes nodes) rest) :
    Spells sigil (.nodes (withText plain nodes)) (text ++ rest)
  | nextNode {node : Node} {nodes : List Node} {text rest : List Char}
    (here : Spells sigil (.node node) text) (below : Spells sigil (.nodes nodes) rest) :
    Spells sigil (.nodes (node :: nodes)) (text ++ rest)

section

variable {sigil : Char → Prop} {text blank : List Char}

/-- White space in front of the first item. -/
theorem Spells.blankBefore_items {items : List Expr} (below : Spells sigil (.items items) text)
    (isBlank : Blanks blank) : Spells sigil (.items items) (blank ++ text) := by
  cases below with
  | lastItem item => exact .lastItem (.blankBefore isBlank item)
  | nextItem item others =>
    rw [← List.append_assoc]
    exact .nextItem (.blankBefore isBlank item) others

/-- White space in front of the first key. -/
theorem Spells.blankBefore_entries {entries : List Entry}
    (below : Spells sigil (.entries entries) text) (isBlank : Blanks blank) :
    Spells sigil (.entries entries) (blank ++ text) := by
  cases below with
  | lastEntry label content =>
    rw [← List.append_assoc]
    exact .lastEntry (.blankBefore isBlank label) content
  | nextEntry label content others =>
    rw [← List.append_assoc]
    exact .nextEntry (.blankBefore isBlank label) content others

end

end FieldResolver.Template

/-
**The syntax of mapping templates.**

A template is a list of nodes: literal text, references and directives. A reference is a root name
followed by property, index and method segments. Interpolated strings hold nodes again, so
expressions and nodes are defined together.
-/

namespace FieldResolver.Template

/-- The operators with two operands. -/
inductive BinaryOp where
  | or | and
  | eq | ne
  | lt | le | gt | ge
  | add | sub
  | mul | div | rem
deriving DecidableEq, Repr

mutual

/-- An expression. -/
inductive Expr where
  | null
  | bool (value : Bool)
  | int (value : Int)
  | float (value : Float)
  | string (text : String)
  /-- A string in double quotes that holds more than text. -/
  | interpolated (nodes : List Node)
  | reference (root : String) (segments : List Segment)
  | list (items : List Expr)
  | range (first last : Expr)
  | map (entries : List Entry)
  | not (operand : Expr)
  | neg (operand : Expr)
  | binary (op : BinaryOp) (left right : Expr)

/-- A key and a value of a map. -/
inductive Entry where
  | mk (key value : Expr)

/-- A step of a reference. -/
inductive Segment where
  | property (name : String)
  | index (key : Expr)
  | method (name : String) (arguments : List Expr)

/-- A condition and the nodes that it guards. -/
inductive Branch where
  | mk (test : Expr) (body : List Node)

/-- A piece of a template. -/
inductive Node where
  | text (text : String)
  | reference (root : String) (segments : List Segment)
  /-- Assigns to the place that a root and its segments name. -/
  | set (root : String) (segments : List Segment) (value : Expr)
  /-- The first branch whose test holds, or else the last nodes. -/
  | cond (branches : List Branch) (otherwise : List Node)
  | foreach (name : String) (items : Expr) (body : List Node)
  | breakLoop
  | stop
  | returnValue (value : Expr)
  /-- Evaluates its arguments; the text goes to the log, which is not part of the result. -/
  | console (arguments : List Expr)

end

instance : Inhabited Expr := ⟨.null⟩
instance : Inhabited Node := ⟨.stop⟩

/-- The words behind `#` that mean something. -/
inductive Directive where
  | set
  | if
  | elseif
  | else
  | end
  | foreach
  | break
  | stop
  | return
  | console
deriving DecidableEq, Repr

namespace Directive

/-- How a directive is spelled. -/
def name : Directive → String
  | .set => "set"
  | .if => "if"
  | .elseif => "elseif"
  | .else => "else"
  | .end => "end"
  | .foreach => "foreach"
  | .break => "break"
  | .stop => "stop"
  | .return => "return"
  | .console => "console"

/-- All directives. -/
def all : List Directive :=
  [.set, .if, .elseif, .else, .end, .foreach, .break, .stop, .return, .console]

/-- The directive of a spelling. -/
def ofName? (name : String) : Option Directive := all.find? fun directive => directive.name == name

/-- A spelling names its directive and no other. -/
theorem ofName?_name (directive : Directive) : ofName? directive.name = some directive := by
  cases directive <;> decide

end Directive

end FieldResolver.Template

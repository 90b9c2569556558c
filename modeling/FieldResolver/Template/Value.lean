/-
**The values that templates compute with.**

Scalars stand for themselves. Lists and maps are shared and change in place, so a value holds the
address of a container and the heap holds its contents. The built-in functions live in namespaces,
which are values too.
-/

import FieldResolver.Dict
import FieldResolver.Decimal.Binary
import FieldResolver.Decimal.Layout

namespace FieldResolver.Template

/-- The groups of built-in functions. -/
inductive Namespace where
  | util
  | time
  | list
  | map
  | math
  | dynamodb
  | rds
deriving DecidableEq, Repr

namespace Namespace

/-- How a group is written in a template. -/
def path : Namespace → String
  | .util => "$util"
  | .time => "$util.time"
  | .list => "$util.list"
  | .map => "$util.map"
  | .math => "$util.math"
  | .dynamodb => "$util.dynamodb"
  | .rds => "$util.rds"

/-- The group of a name below a group; only the outermost has any. -/
def child? : Namespace → String → Option Namespace
  | .util, "time" => some .time
  | .util, "list" => some .list
  | .util, "map" => some .map
  | .util, "math" => some .math
  | .util, "dynamodb" => some .dynamodb
  | .util, "rds" => some .rds
  | _, _ => none

end Namespace

/-- The address of a container: lists and maps are counted apart. -/
inductive Address where
  | list (place : Nat)
  | map (place : Nat)
deriving DecidableEq, Repr

/-- A value of the template language. -/
inductive Value where
  /-- What a reference that leads nowhere gives; it differs from `null` only in its name. -/
  | undefined
  | null
  | bool (value : Bool)
  | int (value : Int)
  | float (value : Float)
  | string (text : String)
  | list (place : Nat)
  | map (place : Nat)
  | functions (group : Namespace)
deriving DecidableEq, Inhabited

/-- The kinds of values that messages tell apart. -/
inductive Kind where
  | undefined
  | null
  | boolean
  | number
  | string
  | list
  | map
  | functions
deriving DecidableEq, Repr

/-- How messages call a kind. -/
def Kind.name : Kind → String
  | .undefined => "undefined"
  | .null => "null"
  | .boolean => "boolean"
  | .number => "number"
  | .string => "string"
  | .list => "list"
  | .map => "map"
  | .functions => "namespace"

/-- The whole numbers of templates: signed, with 64 bits. -/
def minInt : Int := -0x8000000000000000
@[inherit_doc minInt] def maxInt : Int := 0x7fffffffffffffff

/-- Whether a whole number is within the range of templates. -/
def inRange (n : Int) : Bool := decide (minInt ≤ n ∧ n ≤ maxInt)

/-- The whole part of a double, brought into range; zero for what is not a number. -/
def wholePart (x : Float) : Int :=
  match Decimal.Binary.ofFloat x with
  | .notANumber => 0
  | .infinite negative => if negative then minInt else maxInt
  | .finite .. => max minInt (min maxInt ((Decimal.truncated? x).getD 0))

namespace Value

/-- The kind of a value. -/
def kind : Value → Kind
  | .undefined => .undefined
  | .null => .null
  | .bool _ => .boolean
  | .int _ | .float _ => .number
  | .string _ => .string
  | .list _ => .list
  | .map _ => .map
  | .functions _ => .functions

/-- Whether a value is nothing: undefined or null. -/
def isNothing : Value → Bool
  | .undefined | .null => true
  | _ => false

/-- Whether a value counts as true: all do but `false` and nothing. -/
def isTruthy : Value → Bool
  | .undefined | .null | .bool false => false
  | _ => true

/-- The text of a string. -/
def string? : Value → Option String
  | .string text => some text
  | _ => none

/-- A number as a double. -/
def float? : Value → Option Float
  | .int value => some (Float.ofInt value)
  | .float value => some value
  | _ => none

/-- The address of a container. -/
def address? : Value → Option Address
  | .list place => some (.list place)
  | .map place => some (.map place)
  | _ => none

end Value

end FieldResolver.Template

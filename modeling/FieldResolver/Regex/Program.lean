/-
**Programs of regular expressions.**

An expression is compiled into instructions that name the ones to go on with. Instructions are laid
down from the end: compiling an expression in front of a continuation gives the place to enter.
-/

import FieldResolver.Regex.Syntax

namespace FieldResolver.Regex

/-- A step of a match; the numbers are the places of the instructions that follow. -/
inductive Instruction where
  | accept
  /-- Takes a character of a set. -/
  | take (chars : CharSet) (next : Nat)
  | look (condition : Look) (next : Nat)
  /-- Records the place in a slot. -/
  | save (slot : Nat) (next : Nat)
  /-- Goes on at the first place and, should that fail, at the second. -/
  | split (preferred other : Nat)
  | jump (next : Nat)

/-- Instructions in their order. -/
abbrev Program := Array Instruction

/-- Lays an instruction down and gives its place. -/
def emit (program : Program) (instruction : Instruction) : Nat × Program :=
  (program.size, program.push instruction)

/-- A choice between entering a body and going on, the body preferred if greedy. -/
def choice (greedy : Bool) (body next : Nat) : Instruction :=
  if greedy then .split body next else .split next body

/-- A compiler of one expression: it puts the expression in front of a place. -/
abbrev Compiler := Nat → Program → Nat × Program

/-- The body again and again before the continuation, at least once. -/
def atLeastOnce (greedy : Bool) (body : Compiler) : Compiler := fun next program =>
  let (again, program) := emit program (.jump next)
  let (entry, program) := body again program
  (entry, program.setIfInBounds again (choice greedy entry next))

/-- The body any number of times before the continuation. A body that can match no characters is
entered at most once from outside, so that it keeps its preference. -/
def anyTimes (greedy matchesEmpty : Bool) (body : Compiler) : Compiler := fun next program =>
  if matchesEmpty then
    let (entry, program) := atLeastOnce greedy body next program
    emit program (choice greedy entry next)
  else
    let (again, program) := emit program (.jump next)
    let (entry, program) := body again program
    (again, program.setIfInBounds again (choice greedy entry next))

/-- The body up to a number of times before the continuation. -/
def upTo (greedy : Bool) (body : Compiler) : Nat → Compiler
  | 0, next, program => (next, program)
  | count + 1, next, program =>
    let rec nest : Nat → Program → Nat × Program
      | 0, program => (next, program)
      | left + 1, program =>
        let (inner, program) := nest left program
        let (entry, program) := body inner program
        emit program (choice greedy entry next)
    nest (count + 1) program

/-- The body a number of times before the continuation. -/
def times (body : Compiler) : Nat → Compiler
  | 0, next, program => (next, program)
  | count + 1, next, program =>
    let (rest, program) := times body count next program
    body rest program

/-- Compiles an expression in front of a place. -/
def compile : Regex → Compiler
  | .empty, next, program => (next, program)
  | .oneOf chars, next, program => emit program (.take chars next)
  | .look condition, next, program => emit program (.look condition next)
  | .capture number body, next, program =>
    let (close, program) := emit program (.save (2 * number + 1) next)
    let (entry, program) := compile body close program
    emit program (.save (2 * number) entry)
  | .concat first second, next, program =>
    let (rest, program) := compile second next program
    compile first rest program
  | .either first second, next, program =>
    let (a, program) := compile first next program
    let (b, program) := compile second next program
    emit program (.split a b)
  | .repeated least most greedy body, next, program =>
    match most with
    | some most =>
      let (rest, program) := upTo greedy (compile body) (most - least) next program
      times (compile body) least rest program
    | none =>
      match least with
      | 0 => anyTimes greedy body.matchesEmpty (compile body) next program
      | more + 1 =>
        let (rest, program) := atLeastOnce greedy (compile body) next program
        times (compile body) more rest program

/-- An expression ready to be matched. -/
structure Compiled where
  program : Program
  entry : Nat
  groups : Nat
  names : List (String × Nat)

/-- Compiles a pattern; the whole match is recorded as group zero. -/
def Pattern.compiled (pattern : Pattern) : Compiled :=
  let (entry, program) := compile (.capture 0 pattern.body) 0 #[.accept]
  { program, entry, groups := pattern.groups, names := pattern.names }

end FieldResolver.Regex

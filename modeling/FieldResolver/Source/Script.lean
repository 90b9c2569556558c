/-
**One-line scripts.**

A function process is often a one-line script for the command interpreter. The simple ones are run
here: commands one after another, perhaps only behind one that succeeded or failed, with quoted
words, variables and output that goes to the messages or nowhere. The commands are `cat`, `echo`,
`printf`, `read`, `pwd`, `sleep`, `exit`, `true` and `false`; words are not split again after
variables are filled in.
-/

import FieldResolver.Decimal.Reading
import FieldResolver.Source.FunctionProcess
import FieldResolver.Text.Search

namespace FieldResolver.Script

/-- A part of a word. -/
inductive Part where
  | char (c : Char)
  | variable (name : String)
deriving DecidableEq, Repr

/-- Where a command's output goes. -/
inductive Sink where
  | output
  | messages
  | nowhere
deriving DecidableEq, Repr

/-- When a command runs, given how the one in front of it ended. -/
inductive Guard where
  | always
  | afterSuccess
  | afterFailure
deriving DecidableEq, Repr

/-- What a script is made of. -/
inductive Token where
  | word (parts : List Part)
  /-- The end of a command, and when the next one runs. -/
  | next (guard : Guard)
  | redirect (sink : Sink)
  /-- The messages of the command go nowhere. -/
  | quiet
deriving DecidableEq, Repr

/-- How the characters of a script are read. -/
inductive Mode where
  | plain
  | single
  | double
deriving DecidableEq, Repr

/-- Whether a character may stand in the name of a variable. -/
def isNameChar (c : Char) : Bool := c.isAlphanum || c == '_'

/-- Whether a character has a meaning that scripts here do not have. -/
def isUnsupported (c : Char) : Bool :=
  ['|', '&', '<', '>', '(', ')', '*', '?', '~', '#', '\x60', '\x7b', '\x7d'].contains c

/-- Whether a backslash between double quotes takes a character as it is. -/
def isEscapedInDouble (c : Char) : Bool := ['$', '"', '\\', '\x60'].contains c

/-- The tokens that need no blanks around them. -/
def operators : List (String × Token) :=
  [("&&", .next .afterSuccess), ("||", .next .afterFailure), (";", .next .always),
    ("\n", .next .always), (">&2", .redirect .messages), ("> /dev/null", .redirect .nowhere),
    (">/dev/null", .redirect .nowhere)]

/-- The tokens that start a word of their own. -/
def numberedOperators : List (String × Token) :=
  [("1>&2", .redirect .messages), ("2> /dev/null", .quiet), ("2>/dev/null", .quiet)]

/-- The token of one of the spellings that comes next, and the text behind it. -/
def operator? (spellings : List (String × Token)) (text : List Char) :
    Option (Token × List Char) :=
  spellings.findSome? fun (spelling, token) =>
    (Text.dropFront? spelling.toList text).map fun rest => (token, rest)

/-- The token of a word that was begun. -/
def flush : Option (List Part) → List Token
  | none => []
  | some parts => [.word parts.reverse]

/-- Adds a part to a word. -/
def push (word : Option (List Part)) (part : Part) : Option (List Part) :=
  some (part :: word.getD [])

/-- The part of a word behind a dollar sign, and the text behind it. -/
def dollarPart? : List Char → Option (Part × List Char)
  | '?' :: rest => some (.variable "?", rest)
  | '\x7b' :: rest =>
    match rest.dropWhile isNameChar with
    | '\x7d' :: behind => some (.variable (String.ofList (rest.takeWhile isNameChar)), behind)
    | _ => none
  | '(' :: _ | '$' :: _ => none
  | rest =>
    let name := rest.takeWhile isNameChar
    if name.isEmpty then some (.char '$', rest)
    else some (.variable (String.ofList name), rest.dropWhile isNameChar)

/-- The tokens of the rest of a script behind the word begun, whose parts are in reverse order; the
budget bounds the steps. -/
def lexWithin : Nat → Mode → Option (List Part) → List Char → Option (List Token)
  | 0, _, _, _ => none
  | _, mode, word, [] => if mode = .plain then some (flush word) else none
  | budget + 1, .single, word, c :: rest =>
    if c = '\'' then lexWithin budget .plain word rest
    else lexWithin budget .single (push word (.char c)) rest
  | budget + 1, mode, word, '$' :: rest =>
    match dollarPart? rest with
    | some (part, rest) => lexWithin budget mode (push word part) rest
    | none => none
  | budget + 1, .double, word, '\\' :: c :: rest =>
    let word := if isEscapedInDouble c then word else push word (.char '\\')
    lexWithin budget .double (push word (.char c)) rest
  | budget + 1, .double, word, c :: rest =>
    if c = '"' then lexWithin budget .plain word rest
    else lexWithin budget .double (push word (.char c)) rest
  | budget + 1, .plain, word, '\\' :: c :: rest =>
    lexWithin budget .plain (push word (.char c)) rest
  | budget + 1, .plain, word, c :: rest =>
    let spellings := if word.isNone then operators ++ numberedOperators else operators
    match operator? spellings (c :: rest) with
    | some (token, rest) =>
      (lexWithin budget .plain none rest).map fun tokens => flush word ++ token :: tokens
    | none =>
      if c = '\'' then lexWithin budget .single (some (word.getD [])) rest
      else if c = '"' then lexWithin budget .double (some (word.getD [])) rest
      else if c = ' ' ∨ c = '\t' then (lexWithin budget .plain none rest).map (flush word ++ ·)
      else if isUnsupported c then none
      else lexWithin budget .plain (push word (.char c)) rest

/-- The tokens of a script, if it is a simple one. -/
def lex (script : List Char) : Option (List Token) :=
  lexWithin (script.length + 1) .plain none script

/-- A command. -/
structure Command where
  /-- The words, of a command that is being read in reverse order. -/
  words : List (List Part) := []
  guard : Guard := .always
  sink : Sink := .output
  quiet : Bool := false

/-- The commands of tokens behind those of the command begun. -/
def commands (begun : Command) : List Token → List Command
  | [] => [{ begun with words := begun.words.reverse }]
  | .word parts :: rest => commands { begun with words := parts :: begun.words } rest
  | .redirect sink :: rest => commands { begun with sink } rest
  | .quiet :: rest => commands { begun with quiet := true } rest
  | .next guard :: rest =>
    { begun with words := begun.words.reverse } :: commands { guard } rest

/-- The state of a script that runs. -/
structure State where
  bindings : Dict String
  input : List Char
  output : String := ""
  messages : String := ""
  status : Nat := 0
  /-- How long the script has slept, in milliseconds. -/
  elapsedMs : Nat := 0

namespace State

/-- The text of a word. -/
def fill (state : State) (word : List Part) : String :=
  String.join <| word.map fun
    | .char c => String.singleton c
    | .variable "?" => toString state.status
    | .variable name => (state.bindings.get? name).getD ""

/-- Writes a text. -/
def write (state : State) (sink : Sink) (text : String) : State :=
  match sink with
  | .output => { state with output := state.output ++ text }
  | .messages => { state with messages := state.messages ++ text }
  | .nowhere => state

/-- Sets the status. -/
def withStatus (state : State) (status : Nat) : State := { state with status }

end State

/-- Whether a command runs behind one with a status. -/
def Guard.passes : Guard → Nat → Bool
  | .always, _ => true
  | .afterSuccess, status => status == 0
  | .afterFailure, status => status != 0

/-- A text whose backslashes stand for line breaks and tabs. -/
def unescape : List Char → List Char
  | '\\' :: 'n' :: rest => '\n' :: unescape rest
  | '\\' :: 't' :: rest => '\t' :: unescape rest
  | '\\' :: 'r' :: rest => '\r' :: unescape rest
  | '\\' :: '\\' :: rest => '\\' :: unescape rest
  | '\\' :: '"' :: rest => '"' :: unescape rest
  | c :: rest => c :: unescape rest
  | [] => []

/-- Fills arguments into a format once; what is left of the arguments is given back. -/
def format : List Char → List String → List Char × List String
  | '%' :: '%' :: rest, arguments =>
    let (text, left) := format rest arguments
    ('%' :: text, left)
  | '%' :: 's' :: rest, arguments | '%' :: 'd' :: rest, arguments =>
    let (text, left) := format rest arguments.tail
    ((arguments.headD "").toList ++ text, left)
  | c :: rest, arguments =>
    let (text, left) := format rest arguments
    (c :: text, left)
  | [], arguments => ([], arguments)

/-- Fills arguments into a format again as long as there are some; the budget bounds the rounds. -/
def formatAll (pattern : List Char) : Nat → List String → List Char
  | 0, _ => []
  | budget + 1, arguments =>
    let (text, left) := format pattern arguments
    if left.isEmpty || left.length == arguments.length then text
    else text ++ formatAll pattern budget left

/-- A line without its backslashes, each of which takes the next character as it is. -/
def dropBackslashes : List Char → List Char
  | '\\' :: c :: rest => c :: dropBackslashes rest
  | '\\' :: [] => []
  | c :: rest => c :: dropBackslashes rest
  | [] => []

/-- Reads a line into a variable; the status says whether there was one. -/
def readLine (state : State) (name : String) : State :=
  let line := state.input.takeWhile (· != '\n')
  let rest := state.input.dropWhile (· != '\n')
  let text := String.ofList (Text.trim (dropBackslashes line))
  { state with
    bindings := state.bindings.insert name text
    input := rest.tail
    status := if rest.isEmpty then 1 else 0 }

/-- The milliseconds of a number of seconds with or without a fraction. -/
def milliseconds? (text : List Char) : Option Nat :=
  let whole := text.takeWhile Decimal.isDigit
  let fraction := (text.dropWhile Decimal.isDigit).drop 1
  let isNumber := match text.dropWhile Decimal.isDigit with
    | [] => !whole.isEmpty
    | point :: _ => point == '.' && fraction.all Decimal.isDigit && text.length != 1
  let thousandths := (fraction ++ ['0', '0', '0']).take 3
  if isNumber then some (Decimal.natOfDigits (whole ++ thousandths) 0) else none

/-- Runs a command: the state behind it, and whether the script ends there. -/
def runCommand (state : State) (command : Command) : State × Bool :=
  let write (text : String) := (state.write command.sink text).withStatus 0
  let complain (text : String) (status : Nat) :=
    let sink := if command.quiet then .nowhere else .messages
    (state.write sink ("sh: 1: " ++ text ++ "\n")).withStatus status
  match command.words.map state.fill with
  | [] => (state, false)
  | [":"] | ["true"] => (state.withStatus 0, false)
  | ["false"] => (state.withStatus 1, false)
  | ["cat"] => ({ write (String.ofList state.input) with input := [] }, false)
  | ["pwd"] => (write ((state.bindings.get? "PWD").getD "/" ++ "\n"), false)
  | "echo" :: words =>
    let text := String.ofList (unescape (String.intercalate " " words).toList)
    (write (text ++ "\n"), false)
  | "printf" :: pattern :: arguments =>
    let text := formatAll (unescape pattern.toList) (arguments.length + 1) arguments
    (write (String.ofList text), false)
  | ["read", name] => (readLine state name, false)
  | ["sleep", seconds] =>
    match milliseconds? seconds.toList with
    | some ms => ({ state with elapsedMs := state.elapsedMs + ms, status := 0 }, false)
    | none => (state.withStatus 1, false)
  | ["exit"] => (state, true)
  | ["exit", status] =>
    match Decimal.nat? status.toList with
    | some n => (state.withStatus (n % 256), true)
    | none => (complain s!"exit: Illegal number: {status}" 2, true)
  | name :: _ => (complain s!"{name}: not found" 127, false)

/-- Runs commands in order. -/
def runAll (state : State) : List Command → State
  | [] => state
  | command :: rest =>
    if command.guard.passes state.status then
      match runCommand state command with
      | (state, true) => state
      | (state, false) => runAll state rest
    else runAll state rest

/-- Runs a script, if it is a simple one. -/
def run? (script : String) (bindings : Dict String) (input : String) : Option FinishedProcess := do
  let tokens ← lex script.toList
  let state := runAll { bindings, input := input.toList } (commands {} tokens)
  some
    { ending := .exited state.status, output := state.output, messages := state.messages
      elapsedMs := state.elapsedMs }

/-- Starts the scripts that can be run here, in directories that exist. -/
def launcher (isDirectory : String → Bool) : Launcher := fun launch =>
  if launch.directory.all isDirectory then
    match launch.command, launch.arguments with
    | "sh", ["-c", script] =>
      let environment := match launch.directory with
        | some directory => launch.environment.insert "PWD" directory
        | none => launch.environment
      match run? script environment launch.input with
      | some process => .ok process
      | none => .error "a script that cannot be run here"
    | _, _ => .error "No such file or directory (os error 2)"
  else .error "No such file or directory (os error 2)"

end FieldResolver.Script

/-
**Arguments of the command line.**

The program has two commands, `resolve` and `render`. Options stand before or behind the file of
their command, their values behind an equals sign or as the next argument, and no option may be
given twice. Asking for help wins over what is missing.
-/

namespace FieldResolver.CommandLine

/-- What help can be asked for. -/
inductive Topic where
  | program
  | resolve
  | render
deriving DecidableEq, Repr

/-- What the program is asked to do. -/
inductive Command where
  | hint
  | help (topic : Topic)
  | version
  /-- Resolves a field of an API; `fullRequest` says that the input is all of the request and not
  only its arguments. -/
  | resolve (path typeName field : String) (fullRequest : Bool)
  | render (path : String)
deriving DecidableEq, Repr

/-- What has been read of a command's arguments. -/
structure Given where
  files : List String := []
  values : List (String × String) := []
  flags : List String := []

/-- The options of a command. -/
structure Accepted where
  /-- The options that have a value. -/
  values : List String := []
  flags : List String := []

/-- What reading arguments comes to, short of an error. -/
inductive Read where
  | given (given : Given)
  | help

/-- Splits an option from the value behind its equals sign. -/
def splitOption (option : List Char) : String × Option String :=
  match option.span (· != '=') with
  | (name, _ :: value) => (String.ofList name, some (String.ofList value))
  | (name, []) => (String.ofList name, none)

/-- Whether an argument looks like an option and so cannot be a value. -/
def looksLikeOption (argument : String) : Bool :=
  match argument.toList with
  | '-' :: _ :: _ => true
  | _ => false

/-- Notes the value of an option that has not been given before. -/
def Given.addValue (given : Given) (name value : String) : Option Given :=
  if (given.values.lookup name).isSome then none
  else some { given with values := given.values ++ [(name, value)] }

/-- Notes a flag that has not been given before. -/
def Given.addFlag (given : Given) (name : String) : Option Given :=
  if given.flags.contains name then none else some { given with flags := given.flags ++ [name] }

/-- Notes a file. -/
def Given.addFile (given : Given) (path : String) : Given :=
  { given with files := given.files ++ [path] }

/-- Reads the arguments of a command; nothing for an error of usage. -/
def read (accepted : Accepted) (given : Given) : List String → Option Read
  | [] => some (.given given)
  | argument :: rest =>
    match argument.toList with
    | ['-', '-'] => some (.given { given with files := given.files ++ rest })
    | '-' :: '-' :: option =>
      match splitOption option with
      | ("help", none) => some .help
      | (name, some value) =>
        if accepted.values.contains name then
          match given.addValue name value with
          | some given => read accepted given rest
          | none => none
        else none
      | (name, none) =>
        if accepted.flags.contains name then
          match given.addFlag name with
          | some given => read accepted given rest
          | none => none
        else if accepted.values.contains name then
          match rest with
          | value :: rest =>
            if looksLikeOption value then none
            else
              match given.addValue name value with
              | some given => read accepted given rest
              | none => none
          | [] => none
        else none
    | '-' :: 'h' :: _ => some .help
    | '-' :: _ :: _ => none
    | _ => read accepted (given.addFile argument) rest

/-- The options of the command that resolves a field. -/
def resolveOptions : Accepted := { values := ["type", "field"], flags := ["request"] }

/-- The command that arguments ask for; nothing for an error of usage. -/
def Command.ofArguments? : List String → Option Command
  | [] => some .hint
  | "resolve" :: arguments =>
    match CommandLine.read resolveOptions {} arguments with
    | some .help => some (.help .resolve)
    | some (.given given) =>
      match given.files, given.values.lookup "type", given.values.lookup "field" with
      | [path], some typeName, some field =>
        if path.isEmpty then none
        else some (.resolve path typeName field (given.flags.contains "request"))
      | _, _, _ => none
    | none => none
  | "render" :: arguments =>
    match CommandLine.read {} {} arguments with
    | some .help => some (.help .render)
    | some (.given { files := [path], .. }) => if path.isEmpty then none else some (.render path)
    | _ => none
  | ["help"] | "--help" :: _ | "-h" :: _ => some (.help .program)
  | ["help", "resolve"] => some (.help .resolve)
  | ["help", "render"] => some (.help .render)
  | "--version" :: _ | "-V" :: _ => some .version
  | _ => none

end FieldResolver.CommandLine

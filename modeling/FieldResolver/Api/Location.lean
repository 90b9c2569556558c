/-
**Paths of template files.**

Paths are joined as they are written, without looking at the directories that they name: an absolute
path stands for itself.
-/

namespace FieldResolver.Location

/-- A path seen from a directory. -/
def join (directory path : List Char) : List Char :=
  if path.head? = some '/' then path
  else if directory.isEmpty || directory.getLast? = some '/' then directory ++ path
  else directory ++ '/' :: path

/-- A reversed path without slashes and lone dots at its end. -/
def dropEnd : List Char → List Char
  | '/' :: rest => dropEnd rest
  | '.' :: '/' :: rest => dropEnd rest
  | path => path

/-- The directory that a path lies in; none for the root and the empty path. -/
def parent? (path : List Char) : Option (List Char) :=
  match dropEnd path.reverse with
  | [] => none
  | shortened =>
    let front := (dropEnd (shortened.dropWhile (· != '/'))).reverse
    some (if front.isEmpty && path.head? = some '/' then ['/'] else front)

/-- The directory of the templates of a definition at a path. -/
def templates (definitionPath location : String) : String :=
  let directory := (parent? definitionPath.toList).getD ['.']
  String.ofList (join directory location.toList)

/-- A template's path below a directory. -/
def template (directory path : String) : String :=
  String.ofList (join directory.toList path.toList)

end FieldResolver.Location

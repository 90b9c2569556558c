/-
**The JSON document that a template writes.**

Text of blanks only is `null`. Otherwise the text is read as JSON, and if it is none, once more
without the commas in front of closing brackets and braces.
-/

import FieldResolver.Json.Reader
import FieldResolver.Text.Blank

namespace FieldResolver.Template.Output

/-- Where a character of a document stands. -/
inductive Place where
  | outside
  | inString
  /-- Behind a backslash in a string. -/
  | escaped

/-- The place behind a character. -/
def Place.after (place : Place) (c : Char) : Place :=
  match place with
  | .outside => if c = '"' then .inString else .outside
  | .inString => if c = '\\' then .escaped else if c = '"' then .outside else .inString
  | .escaped => .inString

/-- Whether the first character that is no blank closes a container. -/
def closesNext (text : List Char) : Bool :=
  match (text.dropWhile Text.isBlank).head? with
  | some c => c == '\x7d' || c == ']'
  | none => false

/-- Drops every comma outside strings that only blanks keep from a closing bracket or brace. -/
def dropCommas (place : Place) : List Char → List Char
  | [] => []
  | c :: rest =>
    match place with
    | .outside =>
      if c = ',' && closesNext rest then dropCommas .outside rest
      else c :: dropCommas (place.after c) rest
    | _ => c :: dropCommas (place.after c) rest

/-- The document of a text, or why it is none. -/
def document (text : List Char) : Except String Json :=
  let trimmed := Text.trim text
  if trimmed.isEmpty then .ok .null
  else
    match Json.read trimmed with
    | .ok value => .ok value
    | .error error =>
      match Json.read (dropCommas .outside trimmed) with
      | .ok value => .ok value
      | .error _ => .error ("Unable to parse the JSON document: " ++ error.message trimmed)

end FieldResolver.Template.Output

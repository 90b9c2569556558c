/-
**Tokens of table expressions.**

An expression names attributes by words or by placeholders such as `#name`, and values by
placeholders such as `:value`.
-/

import FieldResolver.Text.Blank
import FieldResolver.Unicode.Category

namespace FieldResolver.Table

/-- The signs that stand for comparison and arithmetic. -/
inductive Sign where
  | eq | ne | lt | le | gt | ge
  | plus | minus
deriving DecidableEq, Repr

/-- How a sign is written. -/
def Sign.text : Sign → String
  | .eq => "="
  | .ne => "<>"
  | .lt => "<"
  | .le => "<="
  | .gt => ">"
  | .ge => ">="
  | .plus => "+"
  | .minus => "-"

/-- A token. Placeholders keep their first character. -/
inductive Token where
  | name (placeholder : String)
  | value (placeholder : String)
  | word (text : String)
  | sign (sign : Sign)
  | openParen
  | closeParen
  | comma
deriving DecidableEq

/-- Why a text cannot be split into tokens. -/
inductive Token.Malformed where
  | placeholder (offset : Nat)
  | character (found : Char)
deriving DecidableEq

/-- The wording of an error. -/
def Token.Malformed.message : Token.Malformed → String
  | .placeholder offset => s!"invalid expression placeholder at offset {offset}"
  | .character found => s!"unexpected character '{found}' in expression"

/-- Whether a character may stand in a word. -/
def isWordChar (c : Char) : Bool := Unicode.isAlphanumeric c || c == '_'

/-- The characters of combining rank that are no marks. -/
def otherExtending : List (Nat × Nat) :=
  [(0x9BE, 0x9BE), (0x9D7, 0x9D7), (0xB3E, 0xB3E), (0xB57, 0xB57), (0xBBE, 0xBBE), (0xBD7, 0xBD7),
    (0xCC0, 0xCC0), (0xCC2, 0xCC2), (0xCC7, 0xCC8), (0xCCA, 0xCCB), (0xCD5, 0xCD6), (0xD3E, 0xD3E),
    (0xD57, 0xD57), (0xDCF, 0xDCF), (0xDDF, 0xDDF), (0x1715, 0x1715), (0x1734, 0x1734),
    (0x1B35, 0x1B35), (0x1B3B, 0x1B3B), (0x1B3D, 0x1B3D), (0x1B43, 0x1B44), (0x1BAA, 0x1BAA),
    (0x1BF2, 0x1BF3), (0x302E, 0x302F), (0xA953, 0xA953), (0xA9C0, 0xA9C0), (0xFF9E, 0xFF9F),
    (0x111C0, 0x111C0), (0x11235, 0x11235), (0x1133E, 0x1133E), (0x1134D, 0x1134D),
    (0x11357, 0x11357), (0x113B8, 0x113B8), (0x113C2, 0x113C2), (0x113C5, 0x113C5),
    (0x113C7, 0x113C9), (0x113CF, 0x113CF), (0x114B0, 0x114B0), (0x114BD, 0x114BD),
    (0x115AF, 0x115AF), (0x116B6, 0x116B6), (0x11930, 0x11930), (0x1193D, 0x1193D),
    (0x11F41, 0x11F41), (0x16FF0, 0x16FF1), (0x1D165, 0x1D166), (0x1D16D, 0x1D172)]

/-- Whether a character attaches itself to the one in front of it. -/
def isExtending (c : Char) : Bool :=
  Unicode.category c == .nonspacingMark || Unicode.category c == .enclosingMark ||
    otherExtending.any fun range => decide (range.1 ≤ c.toNat ∧ c.toNat ≤ range.2)

/-- A character of a word as messages show it: by its number if it attaches itself to another. -/
def shownChar (c : Char) : List Char :=
  if isExtending c then "\\u\x7b".toList ++ Nat.toDigits 16 c.toNat ++ ['\x7d'] else [c]

/-- A word or a sign as messages show it. -/
def shown (text : String) : String :=
  String.ofList ('"' :: (text.toList.flatMap shownChar ++ ['"']))

/-- A token as messages show it. -/
def Token.shown : Token → String
  | .name placeholder => "Name(" ++ Table.shown placeholder ++ ")"
  | .value placeholder => "Value(" ++ Table.shown placeholder ++ ")"
  | .word text => "Ident(" ++ Table.shown text ++ ")"
  | .sign written => "Op(" ++ Table.shown written.text ++ ")"
  | .openParen => "LParen"
  | .closeParen => "RParen"
  | .comma => "Comma"

/-- The first token of a text that starts with no blank, and the text behind it. `offset` is the
number of characters in front. -/
def firstToken (offset : Nat) (c : Char) (rest : List Char) :
    Except Token.Malformed (Token × List Char) :=
  let word := rest.takeWhile isWordChar
  let behind := rest.dropWhile isWordChar
  match c, rest with
  | '(', _ => .ok (.openParen, rest)
  | ')', _ => .ok (.closeParen, rest)
  | ',', _ => .ok (.comma, rest)
  | '#', _ =>
    if word.isEmpty then .error (.placeholder offset)
    else .ok (.name (String.ofList ('#' :: word)), behind)
  | ':', _ =>
    if word.isEmpty then .error (.placeholder offset)
    else .ok (.value (String.ofList (':' :: word)), behind)
  | '<', '>' :: more => .ok (.sign .ne, more)
  | '<', '=' :: more => .ok (.sign .le, more)
  | '>', '=' :: more => .ok (.sign .ge, more)
  | '<', _ => .ok (.sign .lt, rest)
  | '>', _ => .ok (.sign .gt, rest)
  | '=', _ => .ok (.sign .eq, rest)
  | '+', _ => .ok (.sign .plus, rest)
  | '-', _ => .ok (.sign .minus, rest)
  | _, _ =>
    if isWordChar c then .ok (.word (String.ofList (c :: word)), behind)
    else .error (.character c)

/-- Splits the end of a text of `length` characters; the budget bounds the steps. -/
def tokensWithin (length : Nat) : Nat → List Char → Except Token.Malformed (List Token)
  | 0, _ => .ok []
  | _, [] => .ok []
  | budget + 1, c :: rest =>
    if Text.isBlank c then tokensWithin length budget rest
    else do
      let (token, rest) ← firstToken (length - (rest.length + 1)) c rest
      return token :: (← tokensWithin length budget rest)

/-- The tokens of a text. -/
def tokens (text : List Char) : Except Token.Malformed (List Token) :=
  tokensWithin text.length text.length text

end FieldResolver.Table

/-
# The text of an expression

An expression is written with the fewest parentheses that let it be read back,
its own groups apart, and a word is quoted unless it reads back as one bare
word.
-/

import MusicCollections.Expression.Parser

namespace MusicCollections

namespace Expression

/-- Whether a word reads back as itself without quotes; in a name a colon would
make it a filter. -/
def isBare (colonAllowed : Bool) (word : String) : Bool :=
  !word.isEmpty && (Token.operator? word).isNone &&
    word.toList.all fun c => Token.isWordChar c && (colonAllowed || c != ':')

/-- A character between quotes. -/
def quoteChar (c : Char) : List Char := if c = '\\' ∨ c = '"' then ['\\', c] else [c]

/-- A word between quotes. -/
def quoteWord (word : String) : String :=
  "\"" ++ String.ofList (word.toList.flatMap quoteChar) ++ "\""

def renderWord (colonAllowed : Bool) (word : String) : String :=
  if isBare colonAllowed word then word else quoteWord word

def isBoth : Expression → Bool
  | .both _ _ => true
  | _ => false

def isEither : Expression → Bool
  | .either _ _ => true
  | _ => false

/-- A text in parentheses if they are needed. -/
def parenthesize (needed : Bool) (text : String) : String :=
  if needed then "(" ++ text ++ ")" else text

/-- The text of an expression. -/
def render : Expression → String
  | .ref name => renderWord false name
  | .filter tag pattern => tag.name ++ ":" ++ renderWord true pattern
  | .complement e => "NOT " ++ parenthesize (e.isBoth || e.isEither) e.render
  | .both l r =>
    parenthesize l.isEither l.render ++ " AND " ++ parenthesize (r.isBoth || r.isEither) r.render
  | .either l r => l.render ++ " OR " ++ parenthesize r.isEither r.render
  | .group e => "(" ++ e.render ++ ")"

end Expression

end MusicCollections

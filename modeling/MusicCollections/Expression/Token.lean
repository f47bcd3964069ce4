/-
# Tokens of an expression

White space separates tokens and is kept only inside quotes.  A bare word is a
longest run of characters other than white space, controls, parentheses, quotes
and the symbols `=`, `;`, `|`, the back quote and the braces; words equal to an
operator but for ASCII case are that operator.  Inside quotes a backslash takes
the meaning from a quote or a backslash after it, and is itself otherwise.

    artist:"Miles Davis" AND NOT (jazz OR album:Kind)

has the tokens `artist:`, `"Miles Davis"`, `AND`, `NOT`, `(`, `jazz`, `OR`,
`album:Kind`, `)` and the end.  Positions count characters from the start.
-/

import MusicCollections.Text.Blank
import MusicCollections.Text.Quoted
import MusicCollections.Tag

namespace MusicCollections

inductive TokenKind where
  /-- A bare word, which may hold a colon. -/
  | word (word : String)
  /-- A quoted text, its escapes resolved. -/
  | quoted (text : String)
  | and
  | or
  | not
  | opening
  | closing
  /-- The end of the expression. -/
  | finish
  deriving DecidableEq, Repr

/-- How a message cites a token. -/
def TokenKind.shown : TokenKind → String
  | .word w => "`" ++ w ++ "`"
  | .quoted s => "\"" ++ s ++ "\""
  | .and => "AND"
  | .or => "OR"
  | .not => "NOT"
  | .opening => "`(`"
  | .closing => "`)`"
  | .finish => "end of input"

structure Token where
  kind : TokenKind
  /-- The characters of the token, quotes included. -/
  text : String
  /-- Characters before the token. -/
  position : Nat
  deriving DecidableEq, Repr

/-- Why a text has no tokens. -/
inductive TokenError where
  | unterminatedString (position : Nat)
  | unexpectedChar (char : Char) (position : Nat)
  deriving DecidableEq, Repr

namespace TokenError

def position : TokenError → Nat
  | .unterminatedString position => position
  | .unexpectedChar _ position => position

def message : TokenError → String
  | .unterminatedString position =>
    "unterminated quoted string starting at position " ++ toString position
  | .unexpectedChar char position =>
    "unexpected character " ++ Text.quotedChar char ++ " at position " ++ toString position

end TokenError

namespace Token

/-- Symbols that stand in no word: `=` ends a name in the definitions file, and
the others are kept free. -/
def reserved : List Char := ['=', ';', '|', '`', '\x7b', '\x7d']

/-- Whether a character can stand in a bare word. -/
def isWordChar (c : Char) : Bool :=
  !Text.isBlank c && !Text.isControl c && c != '(' && c != ')' && c != '"' && !reserved.contains c

/-- The operator that a word spells, whatever its ASCII case. -/
def operator? (word : String) : Option TokenKind :=
  let word := Text.asciiLower word
  if word = "and" then some .and
  else if word = "or" then some .or
  else if word = "not" then some .not
  else none

/-- What the characters of a bare word stand for. -/
def kindOfWord (chars : List Char) : TokenKind :=
  let word := String.ofList chars
  (operator? word).getD (.word word)

/-- A quoted text after its opening quote: its value and the number of its
characters, the closing quote included.  `none` if it is not closed. -/
def readQuoted : List Char → Option (List Char × Nat)
  | [] => none
  | '"' :: _ => some ([], 1)
  | '\\' :: '"' :: cs => (readQuoted cs).map fun (value, n) => ('"' :: value, n + 2)
  | '\\' :: '\\' :: cs => (readQuoted cs).map fun (value, n) => ('\\' :: value, n + 2)
  | c :: cs => (readQuoted cs).map fun (value, n) => (c :: value, n + 1)

/-- The tokens of the characters from `position` on, of which the first `skip`
belong to the token before. -/
def tokensFrom : (skip position : Nat) → List Char → Except TokenError (List Token)
  | _, position, [] => .ok [⟨.finish, "", position⟩]
  | skip + 1, position, _ :: cs => tokensFrom skip (position + 1) cs
  | 0, position, c :: cs =>
    if Text.isBlank c then tokensFrom 0 (position + 1) cs
    else if c = '(' then
      (tokensFrom 0 (position + 1) cs).map (⟨.opening, "(", position⟩ :: ·)
    else if c = ')' then
      (tokensFrom 0 (position + 1) cs).map (⟨.closing, ")", position⟩ :: ·)
    else if c = '"' then
      match readQuoted cs with
      | none => .error (.unterminatedString position)
      | some (value, n) =>
        let token := ⟨.quoted (String.ofList value), String.ofList (c :: cs.take n), position⟩
        (tokensFrom n (position + 1) cs).map (token :: ·)
    else if isWordChar c then
      let word := c :: cs.takeWhile isWordChar
      let token := ⟨kindOfWord word, String.ofList word, position⟩
      (tokensFrom (word.length - 1) (position + 1) cs).map (token :: ·)
    else .error (.unexpectedChar c position)

end Token

/-- The tokens of a text; the last one, and no other, is its end. -/
def tokenize (text : String) : Except TokenError (List Token) :=
  Token.tokensFrom 0 0 text.toList

end MusicCollections

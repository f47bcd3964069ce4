/-
# Expressions from tokens

From the loosest operator to the tightest:

    expression := or
    or         := and ( OR and )*
    and        := unary ( AND unary )*
    unary      := NOT unary | primary
    primary    := ( expression )
                | WORD                  a name, or tag:pattern
                | WORD_ENDING_IN_COLON QUOTED
                | QUOTED                a name

Two operands next to each other are an error, never an implicit AND.  A list of
tokens that does not end in the end token goes on with its last token for ever,
so one that ends in NOT or in an opening parenthesis may never be read to an end.
-/

import MusicCollections.Expression.Basic
import MusicCollections.Expression.Token

namespace MusicCollections

/-- What was expected at a position and what was found there. -/
structure ParseError where
  position : Nat
  expected : String
  found : String
  deriving DecidableEq, Repr

def ParseError.message (e : ParseError) : String :=
  "expected " ++ e.expected ++ " at position " ++ toString e.position ++ ", found " ++ e.found

namespace Parser

/-- What is left of the tokens. -/
structure Cursor where
  rest : List Token
  /-- The token that is read over and over when nothing is left. -/
  last : Token
  deriving DecidableEq, Repr

/-- The token to be read next. -/
def Cursor.current (c : Cursor) : Token := c.rest.headD c.last

/-- The cursor after the next token. -/
def Cursor.advance (c : Cursor) : Cursor := { c with rest := c.rest.tail }

/-- The token that an empty list goes on with. -/
def endToken : Token := ⟨.finish, "", 0⟩

def Cursor.ofTokens (tokens : List Token) : Cursor := ⟨tokens, tokens.getLastD endToken⟩

/-- Why no expression was read. -/
inductive Stop where
  | fault (e : ParseError)
  /-- More steps were needed than allowed. -/
  | outOfFuel
  deriving DecidableEq, Repr

/-- An expression and the cursor after it. -/
abbrev Step := Except Stop (Expression × Cursor)

/-- The fault that `token` is not what was expected. -/
def unexpected (token : Token) (expected : String) : Stop :=
  .fault ⟨token.position, expected, token.kind.shown⟩

/-- The pattern of the filter whose tag was read: a quoted text. -/
def quotedPattern (tag : Tag) (c : Cursor) : Step :=
  match c.current.kind with
  | .quoted pattern => .ok (.filter tag pattern, c.advance)
  | _ => .error (unexpected c.current "a pattern after the tag")

/-- What messages expect in the place of an unknown tag. -/
def expectedTag : String := "a tag name (" ++ Text.join ", " (Tag.all.map Tag.name) ++ ")"

/-- What messages expect where an operand must begin. -/
def expectedOperand : String := "a reference, tag filter, NOT or `(`"

/-- What a word stands for that was read at `position`: a name, or a filter if
it holds a colon. -/
def wordOperand (position : Nat) (word : String) (c : Cursor) : Step :=
  match Text.splitAtFirst ':' word with
  | none => .ok (.ref word, c)
  | some (tagName, pattern) =>
    match Tag.ofName? tagName with
    | none => .error (.fault ⟨position, expectedTag, "`" ++ tagName ++ "`"⟩)
    | some tag => if pattern.isEmpty then quotedPattern tag c else .ok (.filter tag pattern, c)

/-- Closes the group that was opened before `e`. -/
def closeGroup (e : Expression) (c : Cursor) : Step :=
  if c.current.kind = .closing then .ok (.group e, c.advance)
  else .error (unexpected c.current "`)`")

mutual

/-- `or := and ( OR and )*`. -/
def parseOr : (fuel : Nat) → Cursor → Step
  | 0, _ => .error .outOfFuel
  | fuel + 1, c =>
    match parseAnd fuel c with
    | .error e => .error e
    | .ok (left, c) => parseOrRest fuel left c

/-- The operands of OR after the first. -/
def parseOrRest : (fuel : Nat) → Expression → Cursor → Step
  | 0, _, _ => .error .outOfFuel
  | fuel + 1, left, c =>
    if c.current.kind = .or then
      match parseAnd fuel c.advance with
      | .error e => .error e
      | .ok (right, c) => parseOrRest fuel (.either left right) c
    else .ok (left, c)

/-- `and := unary ( AND unary )*`. -/
def parseAnd : (fuel : Nat) → Cursor → Step
  | 0, _ => .error .outOfFuel
  | fuel + 1, c =>
    match parseUnary fuel c with
    | .error e => .error e
    | .ok (left, c) => parseAndRest fuel left c

/-- The operands of AND after the first. -/
def parseAndRest : (fuel : Nat) → Expression → Cursor → Step
  | 0, _, _ => .error .outOfFuel
  | fuel + 1, left, c =>
    if c.current.kind = .and then
      match parseUnary fuel c.advance with
      | .error e => .error e
      | .ok (right, c) => parseAndRest fuel (.both left right) c
    else .ok (left, c)

/-- `unary := NOT unary | primary`. -/
def parseUnary : (fuel : Nat) → Cursor → Step
  | 0, _ => .error .outOfFuel
  | fuel + 1, c =>
    if c.current.kind = .not then
      match parseUnary fuel c.advance with
      | .error e => .error e
      | .ok (e, c) => .ok (.complement e, c)
    else parsePrimary fuel c

/-- A primary: a group, a name or a filter. -/
def parsePrimary : (fuel : Nat) → Cursor → Step
  | 0, _ => .error .outOfFuel
  | fuel + 1, c =>
    match c.current.kind with
    | .opening =>
      match parseOr fuel c.advance with
      | .error e => .error e
      | .ok (e, c) => closeGroup e c
    | .quoted name => .ok (.ref name, c.advance)
    | .word word => wordOperand c.current.position word c.advance
    | _ => .error (unexpected c.current expectedOperand)

end

/-- What may follow a whole expression: the end. -/
def finish (e : Expression) (c : Cursor) : Except Stop Expression :=
  match c.current.kind with
  | .finish => .ok e.collapse
  | .closing => .error (unexpected c.current "matching `(` before `)`")
  | _ => .error (unexpected c.current "AND, OR or end of input")

/-- Reads a whole list of tokens within `fuel` steps of nesting. -/
def parseWithin (fuel : Nat) (tokens : List Token) : Except Stop Expression :=
  match parseOr fuel (.ofTokens tokens) with
  | .error e => .error e
  | .ok (e, c) => finish e c

/-- Steps that reading a list that does end cannot exceed: four levels for each
token. -/
def fuelFor (tokens : List Token) : Nat := 4 * tokens.length + 8

end Parser

/-- The expression that a list of tokens spells, without groups.  A list that
never ends lacks an operand at its last token. -/
def parseTokens (tokens : List Token) : Except ParseError Expression :=
  match Parser.parseWithin (Parser.fuelFor tokens) tokens with
  | .ok e => .ok e
  | .error (.fault e) => .error e
  | .error .outOfFuel =>
    let last := tokens.getLastD Parser.endToken
    .error ⟨last.position, Parser.expectedOperand, last.kind.shown⟩

/-- Why a text spells no expression. -/
inductive SyntaxError where
  | token (e : TokenError)
  | parse (e : ParseError)
  deriving DecidableEq, Repr

namespace SyntaxError

/-- The position at fault. -/
def position : SyntaxError → Nat
  | .token e => e.position
  | .parse e => e.position

def message : SyntaxError → String
  | .token e => e.message
  | .parse e => e.message

/-- The message, the text and a caret under the position at fault. -/
def diagnostic (e : SyntaxError) (text : String) : String :=
  e.message ++ "\n    " ++ text ++ "\n    " ++ String.ofList (List.replicate e.position ' ') ++ "^"

end SyntaxError

/-- The expression that a text spells. -/
def parseExpression (text : String) : Except SyntaxError Expression :=
  match tokenize text with
  | .error e => .error (.token e)
  | .ok tokens =>
    match parseTokens tokens with
    | .error e => .error (.parse e)
    | .ok e => .ok e

end MusicCollections

/-
# Reading JSON

A reader takes the characters left of a text and gives a value and the
characters after it.  A value may be *kept*, and then it must be one that can be
represented, or *skipped*, and then only its grammar counts:

| | kept | skipped |
| --- | --- | --- |
| nesting | at most 127 deep | unlimited |
| surrogate escapes | in pairs | any |
| numbers | below the largest double | any |
| text that ends inside a number | truncated | malformed |
-/

import MusicCollections.Json.Number

namespace MusicCollections
namespace Json

/-- The white space between the tokens of JSON. -/
def isSpace (c : Char) : Bool := c == ' ' || c == '\t' || c == '\n' || c == '\r'

def skipSpace (cs : List Char) : List Char := cs.dropWhile isSpace

/-- Reads the characters `expected`. -/
def readWord : (expected cs : List Char) → Except Fault (List Char)
  | [], cs => .ok cs
  | _ :: _, [] => .error .truncated
  | e :: expected, c :: cs => if c = e then readWord expected cs else .error .malformed

/-! ## Strings -/

/-- Where the reader of a string stands. -/
inductive StringState where
  | plain
  /-- After a backslash. -/
  | escaped
  /-- Inside a `\u` escape: digits still to come and the number so far. -/
  | code (left value : Nat)

def hexValue? (c : Char) : Option Nat :=
  if '0' ≤ c ∧ c ≤ '9' then some (c.toNat - 48)
  else if 'a' ≤ c ∧ c ≤ 'f' then some (c.toNat - 87)
  else if 'A' ≤ c ∧ c ≤ 'F' then some (c.toNat - 55)
  else none

/-- The character that a one-letter escape stands for. -/
def simpleEscape? (c : Char) : Option Char :=
  match c with
  | '"' => some '"'
  | '\\' => some '\\'
  | '/' => some '/'
  | 'b' => some '\x08'
  | 'f' => some '\x0c'
  | 'n' => some '\n'
  | 'r' => some '\r'
  | 't' => some '\t'
  | _ => none

/-- Bytes of the first four characters in UTF-8. -/
def nextBytes (cs : List Char) : Nat := (String.ofList (cs.take 4)).utf8ByteSize

/-- What a finished `\u` escape of number `n` adds to a string whose last escape
was the leading surrogate `lead?`: characters, and a new leading surrogate.
`none` if the surrogates do not pair up. -/
def closeCode (use : Use) (lead? : Option Nat) (n : Nat) : Option (List Char × Option Nat) :=
  match use, lead? with
  | .skipped, _ => some ([], none)
  | .kept, none =>
    if 0xDC00 ≤ n ∧ n ≤ 0xDFFF then none
    else if 0xD800 ≤ n ∧ n ≤ 0xDBFF then some ([], some n)
    else some ([Char.ofNat n], none)
  | .kept, some lead =>
    if 0xDC00 ≤ n ∧ n ≤ 0xDFFF then
      some ([Char.ofNat (0x10000 + (lead - 0xD800) * 0x400 + (n - 0xDC00))], none)
    else none

/-- Reads a string up to its closing quote, after the characters `done`, which
are given backwards. -/
def readStringFrom (use : Use) :
    StringState → (lead? : Option Nat) → (done : List Char) → List Char →
      Except Fault (String × List Char)
  | _, _, _, [] => .error .truncated
  | .plain, lead?, done, c :: cs =>
    if c = '\\' then readStringFrom use .escaped lead? done cs
    else if lead?.isSome then .error .malformed
    else if c = '"' then .ok (String.ofList done.reverse, cs)
    else if c.toNat < 0x20 then .error .malformed
    else readStringFrom use .plain none (c :: done) cs
  | .escaped, lead?, done, c :: cs =>
    if c = 'u' then
      if nextBytes cs < 4 then .error .truncated
      else readStringFrom use (.code 4 0) lead? done cs
    else if lead?.isSome then .error .malformed
    else
      match simpleEscape? c with
      | some d => readStringFrom use .plain none (d :: done) cs
      | none => .error .malformed
  | .code left value, lead?, done, c :: cs =>
    match hexValue? c with
    | none => .error .malformed
    | some digit =>
      let value := value * 16 + digit
      if left ≤ 1 then
        match closeCode use lead? value with
        | none => .error .malformed
        | some (added, lead?) => readStringFrom use .plain lead? (added ++ done) cs
      else readStringFrom use (.code (left - 1) value) lead? done cs

/-- Reads a string after its opening quote. -/
def readString (use : Use) (cs : List Char) : Except Fault (String × List Char) :=
  readStringFrom use .plain none [] cs

/-! ## Values -/

/-- Nesting that a kept value may have, and one more. -/
def depthLimit : Nat := 128

/-- Reads the colon between the name and the value of a member. -/
def readColon (cs : List Char) : Except Fault (List Char) :=
  match skipSpace cs with
  | [] => .error .truncated
  | ':' :: rest => .ok rest
  | _ => .error .malformed

mutual

/-- Reads a value.  `depth` is how deep it may still nest, and `fuel` bounds the
steps. -/
def readValue (use : Use) : (fuel depth : Nat) → List Char → Except Fault (Json × List Char)
  | 0, _, _ => .error .malformed
  | fuel + 1, depth, cs =>
    match skipSpace cs with
    | [] => .error .truncated
    | 'n' :: rest => (readWord "ull".toList rest).map (Json.null, ·)
    | 't' :: rest => (readWord "rue".toList rest).map (Json.bool true, ·)
    | 'f' :: rest => (readWord "alse".toList rest).map (Json.bool false, ·)
    | '"' :: rest => (readString use rest).map fun (s, rest) => (Json.string s, rest)
    | '-' :: rest => readNumber use true rest
    | '[' :: rest =>
      if use = .kept ∧ depth ≤ 1 then .error .malformed
      else readItems use fuel (depth - 1) true [] rest
    | '\x7b' :: rest =>
      if use = .kept ∧ depth ≤ 1 then .error .malformed
      else readMembers use fuel (depth - 1) true [] rest
    | c :: rest => if c.isDigit then readNumber use false (c :: rest) else .error .malformed

/-- Reads the items of an array up to its closing bracket, after the items
`done`, which are given backwards. -/
def readItems (use : Use) : (fuel depth : Nat) → (first : Bool) → (done : List Json) →
    List Char → Except Fault (Json × List Char)
  | 0, _, _, _, _ => .error .malformed
  | fuel + 1, depth, first, done, cs =>
    match skipSpace cs, first with
    | [], _ => .error .truncated
    | ']' :: rest, _ => .ok (.array done.reverse, rest)
    | ',' :: rest, false =>
      match skipSpace rest with
      | ']' :: _ => .error .malformed
      | rest =>
        match readValue use fuel depth rest with
        | .error e => .error e
        | .ok (item, rest) => readItems use fuel depth false (item :: done) rest
    | rest, true =>
      match readValue use fuel depth rest with
      | .error e => .error e
      | .ok (item, rest) => readItems use fuel depth false (item :: done) rest
    | _, false => .error .malformed

/-- Reads the members of an object up to its closing brace, after the members
`done`; of two members of one name the later stays. -/
def readMembers (use : Use) : (fuel depth : Nat) → (first : Bool) → (done : Dictionary Json) →
    List Char → Except Fault (Json × List Char)
  | 0, _, _, _, _ => .error .malformed
  | fuel + 1, depth, first, done, cs =>
    match skipSpace cs, first with
    | [], _ => .error .truncated
    | '\x7d' :: rest, _ => .ok (.object done, rest)
    | ',' :: rest, false =>
      match skipSpace rest with
      | [] => .error .truncated
      | '"' :: rest => readMember use fuel depth done rest
      | _ => .error .malformed
    | '"' :: rest, true => readMember use fuel depth done rest
    | _, _ => .error .malformed

/-- Reads a member after the opening quote of its name, and the members after
it. -/
def readMember (use : Use) : (fuel depth : Nat) → (done : Dictionary Json) →
    List Char → Except Fault (Json × List Char)
  | 0, _, _, _ => .error .malformed
  | fuel + 1, depth, done, cs =>
    match readString use cs with
    | .error e => .error e
    | .ok (name, rest) =>
      match readColon rest with
      | .error e => .error e
      | .ok rest =>
        match readValue use fuel depth rest with
        | .error e => .error e
        | .ok (value, rest) =>
          readMembers use fuel depth false (done.insert name value) rest

end

/-- Steps that reading `cs` cannot exceed: every third step takes a character. -/
def fuelFor (cs : List Char) : Nat := 3 * cs.length + 3

/-- Reads the next value. -/
def nextValue (use : Use) (cs : List Char) : Except Fault (Json × List Char) :=
  readValue use (fuelFor cs) depthLimit cs

/-- Only white space may stand after a document. -/
def finish {α : Type} (value : α) (rest : List Char) : Except Fault α :=
  if (skipSpace rest).isEmpty then .ok value else .error .malformed

/-- The value that a whole text stands for. -/
def parse (text : String) : Except Fault Json :=
  match nextValue .kept text.toList with
  | .error e => .error e
  | .ok (value, rest) => finish value rest

end Json
end MusicCollections

/-
# Quoted text

Characters and names that an error message cites are put between quotes, and
what could not be read in a message is written as an escape:

| character | written |
| --- | --- |
| NUL, tab, line feed, carriage return | `\0`, `\t`, `\n`, `\r` |
| backslash and the enclosing quote | with a backslash before it |
| unprintable ones | `\u{…}`, the code point in hexadecimal |
-/

import MusicCollections.Text.Unprintable

namespace MusicCollections
namespace Text

/-- The code point of `c` as an escape. -/
def codePointEscape (c : Char) : String :=
  "\\u\x7b" ++ String.ofList (Nat.toDigits 16 c.toNat) ++ "\x7d"

/-- How `c` is written between two quotes `quote`. -/
def escapeChar (quote c : Char) : String :=
  if c = '\x00' then "\\0"
  else if c = '\t' then "\\t"
  else if c = '\n' then "\\n"
  else if c = '\r' then "\\r"
  else if c = '\\' then "\\\\"
  else if c = quote then String.ofList ['\\', c]
  else if isUnprintable c then codePointEscape c
  else String.ofList [c]

/-- A character between single quotes. -/
def quotedChar (c : Char) : String := "'" ++ escapeChar '\'' c ++ "'"

/-- A text between double quotes. -/
def quoted (s : String) : String :=
  "\"" ++ String.join (s.toList.map (escapeChar '"')) ++ "\""

end Text
end MusicCollections

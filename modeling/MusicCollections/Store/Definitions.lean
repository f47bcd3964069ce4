/-
# The definitions file

One collection a line, in the order in which they were defined:

    favorites = artist:"Miles Davis" OR loved
    late night = (ambient OR album:Nocturnes) AND NOT live

Name and expression stand on the two sides of the first `=`, without the white
space around them.  Lines that begin with `#`, and lines without a name or
without an expression, are ignored.  Nothing is escaped, so a name must keep
clear of what would break its line.
-/

import MusicCollections.Store.Error

namespace MusicCollections

/-- A name and the text of its expression. -/
abbrev Definition := String × String

namespace Definitions

/-- The definition on a line. -/
def ofLine? (line : String) : Option Definition :=
  let line := Text.trim line
  if line.isEmpty ∨ line.toList.head? = some '#' then none
  else
    match Text.splitAtFirst '=' line with
    | none => none
    | some (name, expression) =>
      let name := Text.trim name
      let expression := Text.trim expression
      if name.isEmpty ∨ expression.isEmpty then none else some (name, expression)

/-- The definitions of a file, in its order. -/
def parse (text : String) : List Definition := (Text.lines text).filterMap ofLine?

/-- The line of a definition. -/
def line (d : Definition) : String := d.1 ++ " = " ++ d.2 ++ "\n"

/-- The file that holds the definitions. -/
def render (definitions : List Definition) : String := String.join (definitions.map line)

/-- Whether a text goes over the end of a line. -/
def hasLineBreak (s : String) : Bool := s.toList.any fun c => c == '\n' || c == '\r'

/-- Characters that end a name in a line or in an expression. -/
def isSeparator (c : Char) : Bool := ['=', ':', '"', '(', ')', '\n', '\r'].contains c

/-- Whether the tokens are an operator alone. -/
def isOperator : List Token → Bool
  | [⟨kind, _, _⟩, _] => kind == .and || kind == .or || kind == .not
  | _ => false

/-- Why a name cannot be written to the file or referred to, if it cannot. -/
def nameFault? (name : String) : Option NameFault :=
  if (Text.trim name).isEmpty then some .empty
  else if name ≠ Text.trim name then some .padded
  else if name.toList.head? = some '#' then some .comment
  else if name = Expression.allName then some .all
  else if name.toList.any isSeparator then some .separator
  else
    match tokenize name with
    | .error _ => some .reserved
    | .ok tokens => if isOperator tokens then some .operator else none

end Definitions

end MusicCollections

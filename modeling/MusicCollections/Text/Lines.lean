/-
# Lines

A line ends at a line feed, and a carriage return right before the line feed
belongs to the line end.  Text after the last line feed is a line too, unless it
is empty; a carriage return at its end stays.
-/

namespace MusicCollections
namespace Text

/-- Lines of `cs`, after the characters `begun` of the first line, which are
given backwards. -/
def linesAfter (begun : List Char) : List Char → List (List Char)
  | [] => if begun.isEmpty then [] else [begun.reverse]
  | '\r' :: '\n' :: cs => begun.reverse :: linesAfter [] cs
  | '\n' :: cs => begun.reverse :: linesAfter [] cs
  | c :: cs => linesAfter (c :: begun) cs

/-- The lines of a text, without their ends. -/
def lines (s : String) : List String := (linesAfter [] s.toList).map String.ofList

/-- The parts of `cs` between the separators `sep`, after the characters `begun`
of the first part, which are given backwards. -/
def partsAfter (sep : Char) (begun : List Char) : List Char → List (List Char)
  | [] => [begun.reverse]
  | c :: cs =>
    if c = sep then begun.reverse :: partsAfter sep [] cs else partsAfter sep (c :: begun) cs

/-- The parts of a text between the separators `sep`; there is always one. -/
def parts (sep : Char) (s : String) : List String :=
  (partsAfter sep [] s.toList).map String.ofList

/-- The text before the first `sep` and the text after it, if there is one. -/
def splitAtFirst (sep : Char) (s : String) : Option (String × String) :=
  match s.toList.span (· ≠ sep) with
  | (_, []) => none
  | (before, _ :: after) => some (String.ofList before, String.ofList after)

/-- The texts one after the other, with `sep` between neighbours. -/
def join (sep : String) (texts : List String) : String := sep.intercalate texts

end Text
end MusicCollections

/-
# White space and controls

Words of an expression end at white space, and lines of the definitions file,
tags and answers of the daemon are trimmed of it.  White space is the Unicode
property `White_Space`, 25 characters; controls are the general category `Cc`.
The two overlap in the tab, the line and page breaks and U+0085.
-/

namespace MusicCollections
namespace Text

/-- The property `White_Space`. -/
def isBlank (c : Char) : Bool :=
  let n := c.toNat
  (9 ≤ n && n ≤ 13) || n == 0x20 || n == 0x85 || n == 0xA0 || n == 0x1680 ||
    (0x2000 ≤ n && n ≤ 0x200A) || n == 0x2028 || n == 0x2029 || n == 0x202F ||
    n == 0x205F || n == 0x3000

/-- The general category `Cc`. -/
def isControl (c : Char) : Bool :=
  let n := c.toNat
  n < 0x20 || (0x7F ≤ n && n < 0xA0)

/-- `cs` without the white space at its end. -/
def trimEnd (cs : List Char) : List Char := (cs.reverse.dropWhile isBlank).reverse

/-- `cs` without the white space at its start and end. -/
def trimChars (cs : List Char) : List Char := trimEnd (cs.dropWhile isBlank)

/-- A text without the white space at its start and end. -/
def trim (s : String) : String := String.ofList (trimChars s.toList)

end Text
end MusicCollections

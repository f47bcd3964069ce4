/-
# Cells

What a column of a table can hold.  A column for texts makes texts of numbers, and
a column for integers makes integers of the texts and doubles that are one.  What
is of another type than its column can be stored but not read.
-/

import MusicCollections.Cache.Spelling

namespace MusicCollections

/-- What can be put into a column. -/
inductive Cell where
  | null
  | integer (i : Int)
  | real (x : Double)
  | text (s : String)
  | blob
  deriving DecidableEq, Repr

namespace Cell

/-- The cell as a column for texts holds it. -/
def inTextColumn : Cell → Cell
  | .integer i => .text (toString i)
  | .real x => .text x.text
  | cell => cell

/-- The 64-bit integer that a text spells as a number. -/
def spelledInteger? (s : String) : Option Int := (Spelling.ofText? s).bind Spelling.integer?

/-- The cell as a column for integers holds it. -/
def inIntegerColumn : Cell → Cell
  | .text s => (spelledInteger? s).elim (.text s) .integer
  | .real x => x.integer?.elim (.real x) .integer
  | cell => cell

end Cell

end MusicCollections

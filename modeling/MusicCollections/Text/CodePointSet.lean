/-
# Sets of code points

A property of characters that holds on many ranges is kept as the ascending
list of the code points at which it changes, starting from "does not hold".
The ranges `a ≤ n < b` and `c ≤ n < d` are the list `[a, b, c, d]`.
-/

namespace MusicCollections
namespace Text

/-- The code points at which membership changes, ascending; below the first
one nothing is a member. -/
abbrev CodePointSet := List Nat

/-- Membership changes at every listed code point that is not above `n`. -/
def CodePointSet.covers : CodePointSet → Nat → Bool
  | [], _ => false
  | b :: bs, n => if n < b then false else !CodePointSet.covers bs n

end Text
end MusicCollections

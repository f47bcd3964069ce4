/-
# Sets of catalog positions

The tracks that an expression selects are a set of positions below the size of
the catalog, kept as 64-bit words: position `p` is bit `p % 64` of word
`p / 64`.  Union and intersection work word by word, complement clears the bits
of the last word that lie beyond the size, and the positions come out in
ascending order, which is catalog order.

Sets of one size never hold a position outside it.  Operands of different sizes
are combined as far as the words of both reach, and then the last word may hold
bits beyond the size; `contains` does not see them, `items` and `count` do.
-/

namespace MusicCollections

structure PositionSet where
  /-- Positions `64 * i` to `64 * i + 63` are word `i`. -/
  words : List UInt64
  /-- The positions of the domain are those below `size`. -/
  size : Nat
  deriving DecidableEq, Repr

namespace PositionSet

/-- Words that `size` positions take. -/
def wordCount (size : Nat) : Nat := (size + 63) / 64

/-- The word with bit `i` alone. -/
def bit (i : Nat) : UInt64 := 1 <<< i.toUInt64

/-- Whether bit `i` of a word is set. -/
def hasBit (word : UInt64) (i : Nat) : Bool := word.toNat.testBit i

/-- The place of the lowest bit that is set, 64 if none is. -/
def lowestBit (word : UInt64) : Nat := ((List.range 64).find? (hasBit word)).getD 64

/-- Clears the lowest bit that is set. -/
def clearLowest (word : UInt64) : UInt64 := word &&& (word - 1)

/-- Clearing the lowest bit makes a word less, which ends the search for bits. -/
theorem clearLowest_lt {word : UInt64} (h : word ≠ 0) :
    (clearLowest word).toNat < word.toNat := by
  have hpos : 0 < word.toNat := by
    rw [Nat.pos_iff_ne_zero]
    exact fun hzero => h (UInt64.toNat_inj.1 hzero)
  have hone : (1 : UInt64) ≤ word := UInt64.le_iff_toNat_le.2 hpos
  rw [clearLowest, UInt64.toNat_and, UInt64.toNat_sub_of_le _ _ hone]
  exact Nat.lt_of_le_of_lt Nat.and_le_right (Nat.sub_lt hpos Nat.one_pos)

/-- The bits of a word that are set, taken off it from the lowest on. -/
def bits (word : UInt64) : List Nat :=
  if _h : word = 0 then [] else lowestBit word :: bits (clearLowest word)
termination_by word.toNat
decreasing_by exact clearLowest_lt _h

/-- How many bits of a word are set. -/
def bitCount (word : UInt64) : Nat := (List.range 64).countP (hasBit word)

/-- Clears the bits of the last word beyond `size`. -/
def clearTail (words : List UInt64) (size : Nat) : List UInt64 :=
  if size % 64 = 0 then words
  else words.modify (words.length - 1) (· &&& (bit (size % 64) - 1))

/-- No position. -/
def empty (size : Nat) : PositionSet := ⟨List.replicate (wordCount size) 0, size⟩

/-- Every position below `size`. -/
def full (size : Nat) : PositionSet :=
  ⟨clearTail (List.replicate (wordCount size) (~~~0)) size, size⟩

/-- Adds a position; one outside the domain changes nothing. -/
def insert (s : PositionSet) (p : Nat) : PositionSet :=
  if p < s.size then { s with words := s.words.modify (p / 64) (· ||| bit (p % 64)) } else s

/-- The positions listed that lie below `size`. -/
def ofPositions (size : Nat) (positions : List Nat) : PositionSet :=
  positions.foldl insert (empty size)

def contains (s : PositionSet) (p : Nat) : Bool :=
  decide (p < s.size) && s.words[p / 64]?.getD 0 &&& bit (p % 64) != 0

/-- The positions of the set, ascending. -/
def items (s : PositionSet) : List Nat :=
  s.words.zipIdx.flatMap fun (word, i) => (bits word).map (64 * i + ·)

def count (s : PositionSet) : Nat := s.words.foldr (fun word n => bitCount word + n) 0

/-- Combines the words of two lists, keeping what the first has beyond the
second. -/
def combine (op : UInt64 → UInt64 → UInt64) : List UInt64 → List UInt64 → List UInt64
  | a :: as, b :: bs => op a b :: combine op as bs
  | as, [] => as
  | [], _ => []

def union (s t : PositionSet) : PositionSet := { s with words := combine (· ||| ·) s.words t.words }

def inter (s t : PositionSet) : PositionSet := { s with words := combine (· &&& ·) s.words t.words }

/-- The positions of the domain that are not in the set. -/
def complement (s : PositionSet) : PositionSet :=
  { s with words := clearTail (s.words.map (~~~ ·)) s.size }

@[simp] theorem size_insert (s : PositionSet) (p : Nat) : (s.insert p).size = s.size := by
  unfold insert
  split <;> rfl

/-- A combination has as many words as the first of the two. -/
@[simp] theorem length_combine (op : UInt64 → UInt64 → UInt64) (as bs : List UInt64) :
    (combine op as bs).length = as.length := by
  induction as generalizing bs with
  | nil => cases bs <;> rfl
  | cons a as ih => cases bs <;> simp [combine, ih]

end PositionSet

end MusicCollections

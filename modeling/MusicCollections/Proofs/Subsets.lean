/-
# Sets of positions as subsets of the domain

Any number of sets of one size are made, copied, changed and combined, in any order
(`PositionSet.Op`).  Next to each of them the same is done with a finite set of numbers, and
the set stands for it (`PositionSet.StandsFor`): they have the same positions, and nothing is
held beyond the size.  Every operation keeps that (`standsFor_perform`), so it is so after all
of them (`standsFor_run`).

What stands for a subset tests, lists and counts it, and two sets that stand for one subset
are the same words (`StandsFor.eq_iff`).
-/

import Mathlib.Data.Finset.Card
import Mathlib.Data.Finset.Range
import MusicCollections.Proofs.PositionSet

namespace MusicCollections
namespace PositionSet

variable {s s' : PositionSet} {t t' : Finset Nat} {size : Nat}

/-! ## What a set tells of its words -/

/-- A test looks at the bit of the position, inside the domain. -/
theorem contains_eq (s : PositionSet) (p : Nat) :
    s.contains p = (decide (p < s.size) && marks s.words p) := by
  rw [contains, and_bit_ne_zero _ (Nat.mod_lt p (by decide)), marks]

/-- The count of a word is the number of its bits. -/
theorem bitCount_eq_length (word : UInt64) : bitCount word = (bits word).length := by
  rw [bits_eq_filter, bitCount, List.countP_eq_length_filter]

/-- **As many positions are counted as are listed.** -/
theorem count_eq_length_items (s : PositionSet) : s.count = s.items.length := by
  have hfrom : ∀ (words : List UInt64) (i : Nat),
      words.foldr (fun word n => bitCount word + n) 0 =
        ((words.zipIdx i).flatMap fun entry => (bits entry.1).map (64 * entry.2 + ·)).length := by
    intro words
    induction words with
    | nil => exact fun _ => rfl
    | cons word words ih =>
      intro i
      rw [List.foldr_cons, List.zipIdx_cons, List.flatMap_cons, List.length_append,
        ih (i + 1), bitCount_eq_length, List.length_map]
  exact hfrom s.words 0

/-- Words are the same if all of their bits are. -/
theorem eq_of_hasBit {a b : UInt64} (h : ∀ i < 64, hasBit a i = hasBit b i) : a = b := by
  rw [← UInt64.toNat_inj]
  refine Nat.eq_of_testBit_eq fun i => ?_
  show hasBit a i = hasBit b i
  by_cases hi : i < 64
  · exact h i hi
  · have hbeyond : ∀ word : UInt64, hasBit word i = false := fun word => by
      by_contra hbit
      exact hi (lt_of_hasBit (by simpa using hbit))
    rw [hbeyond, hbeyond]

/-- As many words that hold the same positions are the same words. -/
theorem words_eq_of_marks {words words' : List UInt64} (hlength : words.length = words'.length)
    (h : ∀ p, marks words p = marks words' p) : words = words' := by
  refine List.ext_getElem hlength fun i hi hi' => eq_of_hasBit fun b hb => ?_
  have hdiv : (64 * i + b) / 64 = i := by omega
  have hmod : (64 * i + b) % 64 = b := by omega
  have hmark := h (64 * i + b)
  rwa [marks, marks, hdiv, hmod, List.getElem?_eq_getElem hi, List.getElem?_eq_getElem hi']
    at hmark

/-! ## Standing for a subset -/

/-- A valid set of this size holds the positions of the subset, and no others. -/
structure StandsFor (size : Nat) (s : PositionSet) (t : Finset Nat) : Prop where
  valid : s.Valid
  size_eq : s.size = size
  marks_eq : ∀ p, marks s.words p = decide (p ∈ t)

namespace StandsFor

/-- Only numbers below the size are in the set. -/
theorem subset (h : StandsFor size s t) : t ⊆ Finset.range size := by
  intro p hp
  rw [Finset.mem_range, ← h.size_eq]
  exact h.valid.lt_size p (by rw [h.marks_eq, decide_eq_true hp])

/-- What a set stands for lies below its size. -/
theorem lt_size (h : StandsFor size s t) {p : Nat} (hp : p ∈ t) : p < size :=
  Finset.mem_range.1 (h.subset hp)

/-- Membership is that of the set. -/
theorem contains_eq (h : StandsFor size s t) (p : Nat) : s.contains p = decide (p ∈ t) := by
  rw [PositionSet.contains_eq, h.size_eq, h.marks_eq]
  by_cases hp : p ∈ t
  · simp [hp, h.lt_size hp]
  · simp [hp]

/-- **The positions are listed as the set has them**, from the least on. -/
theorem items_eq (h : StandsFor size s t) :
    s.items = (List.range size).filter fun p => decide (p ∈ t) := by
  rw [h.valid.items_eq, h.size_eq]
  exact List.filter_congr fun p _ => h.marks_eq p

/-- The positions are listed in ascending order, each once. -/
theorem pairwise_items (h : StandsFor size s t) : s.items.Pairwise (· < ·) := by
  rw [h.items_eq]
  exact List.pairwise_lt_range.filter _

/-- What is listed is in the set, and the other way round. -/
theorem mem_items (h : StandsFor size s t) (p : Nat) : p ∈ s.items ↔ p ∈ t := by
  rw [h.items_eq, List.mem_filter, List.mem_range, decide_eq_true_iff]
  exact ⟨And.right, fun hp => ⟨h.lt_size hp, hp⟩⟩

/-- The count is the size of the set. -/
theorem count_eq (h : StandsFor size s t) : s.count = t.card := by
  have hitems : s.items.toFinset = t := by
    ext p
    rw [List.mem_toFinset, h.mem_items]
  rw [count_eq_length_items, ← hitems, List.toFinset_card_of_nodup]
  exact h.pairwise_items.imp Nat.ne_of_lt

/-- **Sets are the same exactly if the subsets are.** -/
theorem eq_iff (h : StandsFor size s t) (h' : StandsFor size s' t') : s = s' ↔ t = t' := by
  constructor
  · rintro rfl
    ext p
    rw [← h.mem_items, h'.mem_items]
  · rintro rfl
    have hwords : s.words = s'.words :=
      words_eq_of_marks (length_words_eq h.valid h'.valid (h.size_eq.trans h'.size_eq.symm))
        fun p => (h.marks_eq p).trans (h'.marks_eq p).symm
    have hsize : s.size = s'.size := h.size_eq.trans h'.size_eq.symm
    obtain ⟨words, size⟩ := s
    obtain ⟨words', size'⟩ := s'
    simp only at hwords hsize
    rw [hwords, hsize]

/-! ## The operations -/

/-- The empty set stands for no numbers. -/
theorem empty (size : Nat) : StandsFor size (empty size) ∅ where
  valid := valid_empty size
  size_eq := rfl
  marks_eq p := by simp [PositionSet.empty]

/-- The full set stands for all numbers below its size. -/
theorem full (size : Nat) : StandsFor size (full size) (Finset.range size) where
  valid := valid_full size
  size_eq := rfl
  marks_eq p := by simp [marks_full]

/-- A list stands for the numbers on it that are below the size. -/
theorem ofPositions (size : Nat) (positions : List Nat) :
    StandsFor size (ofPositions size positions) (positions.toFinset.filter (· < size)) where
  valid := valid_ofPositions size positions
  size_eq := size_ofPositions size positions
  marks_eq p := by simp [marks_ofPositions]

/-- An insertion stands for one, unless the position is not below the size. -/
theorem insert (h : StandsFor size s t) (p : Nat) :
    StandsFor size (s.insert p) (if p < size then Insert.insert p t else t) where
  valid := valid_insert h.valid p
  size_eq := by rw [size_insert, h.size_eq]
  marks_eq q := by
    rw [marks_insert h.valid, h.marks_eq, h.size_eq]
    by_cases hp : p < size
    · simp [hp, Bool.or_comm]
    · simp [hp]

/-- A union stands for the union. -/
theorem union (h : StandsFor size s t) (h' : StandsFor size s' t') :
    StandsFor size (s.union s') (t ∪ t') where
  valid := valid_union h.valid h'.valid (h.size_eq.trans h'.size_eq.symm)
  size_eq := h.size_eq
  marks_eq p := by
    rw [marks_union h.valid h'.valid (h.size_eq.trans h'.size_eq.symm), h.marks_eq, h'.marks_eq]
    simp

/-- An intersection stands for the intersection. -/
theorem inter (h : StandsFor size s t) (h' : StandsFor size s' t') :
    StandsFor size (s.inter s') (t ∩ t') where
  valid := valid_inter h.valid h'.valid (h.size_eq.trans h'.size_eq.symm)
  size_eq := h.size_eq
  marks_eq p := by
    rw [marks_inter h.valid h'.valid (h.size_eq.trans h'.size_eq.symm), h.marks_eq, h'.marks_eq]
    simp

/-- A complement stands for the numbers below the size that are not in the set. -/
theorem complement (h : StandsFor size s t) :
    StandsFor size s.complement (Finset.range size \ t) where
  valid := valid_complement h.valid
  size_eq := h.size_eq
  marks_eq p := by
    rw [marks_complement h.valid, h.marks_eq, h.size_eq]
    simp

end StandsFor

/-! ## Sequences of operations -/

/-- What is done next with sets that have numbers for names. -/
inductive Op where
  | empty (i : Nat)
  | full (i : Nat)
  | ofPositions (i : Nat) (positions : List Nat)
  /-- Set `i` becomes a copy of set `j`. -/
  | copy (i j : Nat)
  | insert (i p : Nat)
  /-- Set `i` becomes its union with set `j`. -/
  | union (i j : Nat)
  /-- Set `i` becomes its intersection with set `j`. -/
  | inter (i j : Nat)
  | complement (i : Nat)

/-- The sets of a size after an operation. -/
def perform (size : Nat) (sets : Nat → PositionSet) : Op → Nat → PositionSet
  | .empty i => Function.update sets i (empty size)
  | .full i => Function.update sets i (full size)
  | .ofPositions i positions => Function.update sets i (ofPositions size positions)
  | .copy i j => Function.update sets i (sets j)
  | .insert i p => Function.update sets i ((sets i).insert p)
  | .union i j => Function.update sets i ((sets i).union (sets j))
  | .inter i j => Function.update sets i ((sets i).inter (sets j))
  | .complement i => Function.update sets i (sets i).complement

/-- The subsets of the numbers below `size` after an operation. -/
def performOnSubsets (size : Nat) (subsets : Nat → Finset Nat) : Op → Nat → Finset Nat
  | .empty i => Function.update subsets i ∅
  | .full i => Function.update subsets i (Finset.range size)
  | .ofPositions i positions =>
    Function.update subsets i (positions.toFinset.filter (· < size))
  | .copy i j => Function.update subsets i (subsets j)
  | .insert i p =>
    Function.update subsets i (if p < size then Insert.insert p (subsets i) else subsets i)
  | .union i j => Function.update subsets i (subsets i ∪ subsets j)
  | .inter i j => Function.update subsets i (subsets i ∩ subsets j)
  | .complement i => Function.update subsets i (Finset.range size \ subsets i)

/-- The sets of a size after operations; what was not made yet is empty. -/
def run (size : Nat) (ops : List Op) : Nat → PositionSet :=
  ops.foldl (perform size) fun _ => empty size

/-- The subsets after the same operations. -/
def runOnSubsets (size : Nat) (ops : List Op) : Nat → Finset Nat :=
  ops.foldl (performOnSubsets size) fun _ => ∅

/-- Changing one set and one subset alike leaves the others. -/
theorem standsFor_update {sets : Nat → PositionSet} {subsets : Nat → Finset Nat} {i : Nat}
    (h : ∀ j, StandsFor size (sets j) (subsets j)) (hi : StandsFor size s t) (j : Nat) :
    StandsFor size (Function.update sets i s j) (Function.update subsets i t j) := by
  by_cases hj : j = i
  · subst hj
    simpa using hi
  · simpa [hj] using h j

/-- **An operation does to the subsets what it does to the sets.** -/
theorem standsFor_perform {sets : Nat → PositionSet} {subsets : Nat → Finset Nat}
    (h : ∀ i, StandsFor size (sets i) (subsets i)) (op : Op) (i : Nat) :
    StandsFor size (perform size sets op i) (performOnSubsets size subsets op i) := by
  cases op with
  | empty j => exact standsFor_update h (.empty size) i
  | full j => exact standsFor_update h (.full size) i
  | ofPositions j positions => exact standsFor_update h (.ofPositions size positions) i
  | copy j k => exact standsFor_update h (h k) i
  | insert j p => exact standsFor_update h ((h j).insert p) i
  | union j k => exact standsFor_update h ((h j).union (h k)) i
  | inter j k => exact standsFor_update h ((h j).inter (h k)) i
  | complement j => exact standsFor_update h (h j).complement i

/-- **After any operations, each set stands for the subset that the same operations make.** -/
theorem standsFor_run (size : Nat) (ops : List Op) (i : Nat) :
    StandsFor size (run size ops i) (runOnSubsets size ops i) := by
  have hfrom : ∀ (sets : Nat → PositionSet) (subsets : Nat → Finset Nat),
      (∀ i, StandsFor size (sets i) (subsets i)) →
      StandsFor size (ops.foldl (perform size) sets i)
        (ops.foldl (performOnSubsets size) subsets i) := by
    induction ops with
    | nil => exact fun _ _ h => h i
    | cons op ops ih => exact fun _ _ h => ih _ _ (standsFor_perform h op)
  exact hfrom _ _ fun _ => .empty size

/-- **Sets of positions refine subsets of the domain.**  After any operations on sets of one
size, a set has as many words as the size takes and no bit at the size or beyond.  It tests
and counts the subset made by the same operations and lists it in ascending order, and sets
are equal exactly if their subsets are. -/
theorem run_refines_subsets (size : Nat) (ops : List Op) (i : Nat) :
    (run size ops i).words.length = (size + 63) / 64 ∧
    (∀ p, size ≤ p → marks (run size ops i).words p = false) ∧
    runOnSubsets size ops i ⊆ Finset.range size ∧
    (∀ p, (run size ops i).contains p = decide (p ∈ runOnSubsets size ops i)) ∧
    (run size ops i).items.Pairwise (· < ·) ∧
    (∀ p, p ∈ (run size ops i).items ↔ p ∈ runOnSubsets size ops i) ∧
    (run size ops i).count = (runOnSubsets size ops i).card ∧
    ∀ ops' j, run size ops i = run size ops' j ↔
      runOnSubsets size ops i = runOnSubsets size ops' j := by
  have h := standsFor_run size ops i
  refine ⟨?_, fun p hp => ?_, h.subset, h.contains_eq, h.pairwise_items, h.mem_items, h.count_eq,
    fun ops' j => h.eq_iff (standsFor_run size ops' j)⟩
  · rw [h.valid.length_words, h.size_eq, wordCount]
  · rw [h.marks_eq, decide_eq_false_iff_not]
    exact fun hmem => Nat.not_lt.2 hp (h.lt_size hmem)

/-- A copy is changed alone, and a position at the size is not inserted. -/
example : (run 70 [.ofPositions 0 [69, 0], .copy 1 0, .complement 1, .insert 1 70] 1).items =
    (List.range 68).map (· + 1) := by decide +kernel

end PositionSet
end MusicCollections

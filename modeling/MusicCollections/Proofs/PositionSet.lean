/-
# What a set of positions holds

The words of a set hold position `p` if bit `p % 64` of word `p / 64` is set
(`PositionSet.marks`).  A set is valid if it has as many words as its size takes
and no bit beyond the size.  Every operation on valid sets of one size gives a
valid set, and does to the marks what the operation of its name does to a set of
numbers below the size (`marks_union`, `marks_inter`, `marks_complement`,
`marks_ofPositions`).

A word is listed by taking off its lowest bit until none is left, which gives the bits that
are set in ascending order (`bits_eq_filter`).  So a valid set lists its positions in
ascending order (`Valid.items_eq`).
-/

import Mathlib.Algebra.Group.Nat.Defs
import Mathlib.Data.List.Basic
import Mathlib.Data.List.Sort
import MusicCollections.PositionSet

namespace MusicCollections
namespace PositionSet

/-! ## Bits of a word -/

@[simp] theorem hasBit_zero (i : Nat) : hasBit 0 i = false := by simp [hasBit]

/-- A bit is in the union of two words if it is in one of them. -/
theorem hasBit_or (a b : UInt64) (i : Nat) : hasBit (a ||| b) i = (hasBit a i || hasBit b i) := by
  rw [hasBit, UInt64.toNat_or, Nat.testBit_or]
  rfl

/-- A bit is in the intersection of two words if it is in both. -/
theorem hasBit_and (a b : UInt64) (i : Nat) : hasBit (a &&& b) i = (hasBit a i && hasBit b i) := by
  rw [hasBit, UInt64.toNat_and, Nat.testBit_and]
  rfl

/-- A bit of the word is in the complement if it is not in the word. -/
theorem hasBit_not (a : UInt64) {i : Nat} (h : i < 64) : hasBit (~~~a) i = !hasBit a i := by
  have hsub : UInt64.size - 1 - a.toNat = 2 ^ 64 - (a.toNat + 1) := by
    have : UInt64.size = 2 ^ 64 := rfl
    omega
  rw [hasBit, UInt64.toNat_not, hsub, Nat.testBit_two_pow_sub_succ a.toNat_lt]
  simp [h, hasBit]

/-- The word of bit `k` alone is a power of two. -/
theorem toNat_bit {k : Nat} (h : k < 64) : (bit k).toNat = 2 ^ k := by
  have hpow : 2 ^ k < 2 ^ 64 := Nat.pow_lt_pow_right (by decide) h
  have hk : k.toUInt64.toNat = k := by
    rw [Nat.toUInt64, UInt64.toNat_ofNat']
    exact Nat.mod_eq_of_lt (by omega)
  rw [bit, UInt64.toNat_shiftLeft, hk, Nat.mod_eq_of_lt h]
  simpa [Nat.shiftLeft_eq] using hpow

/-- The word of bit `k` alone has no other bit. -/
theorem hasBit_bit {k : Nat} (h : k < 64) (i : Nat) : hasBit (bit k) i = decide (k = i) := by
  rw [hasBit, toNat_bit h, Nat.testBit_two_pow]

/-- The mask of the last word holds the bits below its width. -/
theorem hasBit_bit_sub_one {k : Nat} (h : k < 64) (i : Nat) :
    hasBit (bit k - 1) i = decide (i < k) := by
  have hle : (1 : UInt64) ≤ bit k := by
    rw [UInt64.le_iff_toNat_le, toNat_bit h]
    exact Nat.one_le_two_pow
  rw [hasBit, UInt64.toNat_sub_of_le _ _ hle, toNat_bit h]
  exact Nat.testBit_two_pow_sub_one k i

/-- A word has 64 bits. -/
theorem lt_of_hasBit {word : UInt64} {i : Nat} (h : hasBit word i = true) : i < 64 := by
  by_contra hi
  have hlt : word.toNat < 2 ^ i :=
    lt_of_lt_of_le word.toNat_lt (Nat.pow_le_pow_right (by decide) (Nat.not_lt.1 hi))
  rw [hasBit, Nat.testBit_lt_two_pow hlt] at h
  cases h

/-- A bit is set if what the word has in common with it is not zero. -/
theorem and_bit_ne_zero (word : UInt64) {i : Nat} (h : i < 64) :
    (word &&& bit i != 0) = hasBit word i := by
  have hsame : ∀ j, hasBit (word &&& bit i) j = (hasBit word j && decide (i = j)) := by
    intro j
    rw [hasBit_and, hasBit_bit h]
  cases hi : hasBit word i with
  | true =>
    rw [bne_iff_ne]
    intro hzero
    have hbit := hsame i
    rw [hzero, hasBit_zero, hi, decide_eq_true rfl] at hbit
    cases hbit
  | false =>
    rw [bne_eq_false_iff_eq, ← UInt64.toNat_inj]
    refine Nat.eq_of_testBit_eq fun j => ?_
    have hbit : hasBit (word &&& bit i) j = false := by
      rw [hsame]
      by_cases hj : i = j
      · rw [← hj, hi, Bool.false_and]
      · rw [decide_eq_false hj, Bool.and_false]
    rw [UInt64.toNat_zero, Nat.zero_testBit]
    exact hbit

/-! ## The bits that are set -/

/-- A word that is not zero has a lowest bit. -/
theorem lowestBit_spec {word : UInt64} (h : word ≠ 0) :
    hasBit word (lowestBit word) = true ∧ ∀ j < lowestBit word, hasBit word j = false := by
  have hne : word.toNat ≠ 0 := fun hzero => h (UInt64.toNat_inj.1 hzero)
  obtain ⟨i, hi⟩ := Nat.exists_testBit_of_ne_zero hne
  have hsome : ((List.range 64).find? (hasBit word)).isSome = true :=
    List.find?_isSome.2 ⟨i, List.mem_range.2 (lt_of_hasBit hi), hi⟩
  obtain ⟨k, hk⟩ := Option.isSome_iff_exists.1 hsome
  obtain ⟨hbit, -, hbelow⟩ := List.find?_range_eq_some.1 hk
  rw [lowestBit, hk, Option.getD_some]
  exact ⟨hbit, fun j hj => by simpa using hbelow j hj⟩

/-- Below its lowest bit a number less one has every bit, there none, and above it those of
the number. -/
theorem testBit_sub_one {n k : Nat} (hk : n.testBit k = true)
    (hbelow : ∀ j < k, n.testBit j = false) (j : Nat) :
    (n - 1).testBit j = if j < k then true else if j = k then false else n.testBit j := by
  have hlt : 2 ^ k < 2 ^ (k + 1) := Nat.pow_lt_pow_right (by decide) (Nat.lt_succ_self k)
  have hpos : 0 < 2 ^ k := Nat.two_pow_pos k
  -- Up to the lowest bit there is nothing but this bit, so one less is the bits below it.
  have hmod : n % 2 ^ (k + 1) = 2 ^ k := by
    refine Nat.eq_of_testBit_eq fun i => ?_
    rw [Nat.testBit_mod_two_pow, Nat.testBit_two_pow]
    rcases Nat.lt_trichotomy i k with hi | rfl | hi
    · simp [hbelow i hi, Nat.ne_of_gt hi]
    · simp [hk]
    · have hnot : ¬i < k + 1 := by omega
      simp [hnot, Nat.ne_of_lt hi]
  have hsplit : n = 2 ^ (k + 1) * (n / 2 ^ (k + 1)) + 2 ^ k := by
    have hdiv := Nat.div_add_mod n (2 ^ (k + 1))
    omega
  generalize n / 2 ^ (k + 1) = q at hsplit
  have hless : n - 1 = 2 ^ (k + 1) * q + (2 ^ k - 1) := by omega
  rw [hless, hsplit, Nat.testBit_two_pow_mul_add q (by omega), Nat.testBit_two_pow_mul_add q hlt,
    Nat.testBit_two_pow_sub_one, Nat.testBit_two_pow]
  rcases Nat.lt_trichotomy j k with hj | rfl | hj
  · have hle : j < k + 1 := by omega
    simp [hj, hle]
  · simp
  · have hnot : ¬j < k + 1 := by omega
    simp [hnot, Nat.not_lt.2 (Nat.le_of_lt hj), Nat.ne_of_gt hj]

/-- **Clearing the lowest bit clears no other.** -/
theorem hasBit_clearLowest {word : UInt64} (h : word ≠ 0) (i : Nat) :
    hasBit (clearLowest word) i = (hasBit word i && decide (i ≠ lowestBit word)) := by
  obtain ⟨hlowest, hbelow⟩ := lowestBit_spec h
  have hone : (1 : UInt64) ≤ word := by
    rw [UInt64.le_iff_toNat_le]
    exact Nat.pos_of_ne_zero fun hzero => h (UInt64.toNat_inj.1 hzero)
  have hless : hasBit (word - 1) i = (word.toNat - 1).testBit i := by
    rw [hasBit, UInt64.toNat_sub_of_le _ _ hone]
    rfl
  rw [clearLowest, hasBit_and, hless, testBit_sub_one hlowest hbelow]
  rcases Nat.lt_trichotomy i (lowestBit word) with hi | rfl | hi
  · simp [hbelow i hi]
  · simp
  · simp [Nat.not_lt.2 (Nat.le_of_lt hi), Nat.ne_of_gt hi, hasBit]

/-- **The bits of a word are listed**, and no others. -/
theorem mem_bits {word : UInt64} {i : Nat} : i ∈ bits word ↔ hasBit word i = true := by
  fun_induction bits word with
  | case1 => simp
  | case2 word h ih =>
    rw [List.mem_cons, ih, hasBit_clearLowest h]
    by_cases hi : i = lowestBit word
    · simp [hi, (lowestBit_spec h).1]
    · simp [hi]

/-- The bits of a word are listed in ascending order. -/
theorem pairwise_bits (word : UInt64) : (bits word).Pairwise (· < ·) := by
  fun_induction bits word with
  | case1 => exact .nil
  | case2 word h ih =>
    refine List.pairwise_cons.2 ⟨fun i hi => ?_, ih⟩
    rw [mem_bits, hasBit_clearLowest h, Bool.and_eq_true, decide_eq_true_iff] at hi
    rcases Nat.lt_or_gt_of_ne hi.2 with hlt | hgt
    · rw [(lowestBit_spec h).2 i hlt] at hi
      cases hi.1
    · exact hgt

/-- **Taken off from the lowest on, the bits of a word are those below 64 that are set.** -/
theorem bits_eq_filter (word : UInt64) : bits word = (List.range 64).filter (hasBit word) := by
  refine (pairwise_bits word).eq_of_mem_iff (List.pairwise_lt_range.filter _) fun i => ?_
  rw [mem_bits, List.mem_filter, List.mem_range]
  exact ⟨fun h => ⟨lt_of_hasBit h, h⟩, And.right⟩

/-! ## Marks of a list of words -/

/-- Whether the words hold a position, inside the domain or not. -/
def marks (words : List UInt64) (p : Nat) : Bool := hasBit (words[p / 64]?.getD 0) (p % 64)

/-- A position is held by a word that is there. -/
theorem lt_of_marks {words : List UInt64} {p : Nat} (h : marks words p = true) :
    p < 64 * words.length := by
  by_contra hp
  have hnone : words[p / 64]? = none := List.getElem?_eq_none (by omega)
  simp [marks, hnone] at h

/-- Words without bits mark nothing. -/
@[simp] theorem marks_replicate_zero (n p : Nat) : marks (List.replicate n 0) p = false := by
  simp only [marks, List.getElem?_replicate]
  split <;> simp

/-- An operation on words that works bit by bit works position by position. -/
theorem marks_combine {op : UInt64 → UInt64 → UInt64} {f : Bool → Bool → Bool}
    (hop : ∀ a b i, hasBit (op a b) i = f (hasBit a i) (hasBit b i)) (hf : f false false = false)
    {as bs : List UInt64} (h : as.length = bs.length) (p : Nat) :
    marks (combine op as bs) p = f (marks as p) (marks bs p) := by
  rw [marks, marks, marks]
  generalize p / 64 = i
  induction as generalizing bs i with
  | nil =>
    obtain rfl := List.length_eq_zero_iff.1 h.symm
    simp [combine, hf]
  | cons a as ih =>
    cases bs with
    | nil => simp at h
    | cons b bs =>
      cases i with
      | zero => simp [combine, hop]
      | succ i => simpa [combine] using ih (Nat.succ.inj h) i

/-- The complements of words mark what the words do not, within their length. -/
theorem marks_map_not (words : List UInt64) (p : Nat) :
    marks (words.map (~~~ ·)) p = (decide (p < 64 * words.length) && !marks words p) := by
  have hi : p % 64 < 64 := Nat.mod_lt _ (by decide)
  rw [marks, marks, List.getElem?_map]
  by_cases hp : p / 64 < words.length
  · have hlt : p < 64 * words.length := by omega
    simp [hp, hlt, hasBit_not _ hi]
  · have hlt : ¬p < 64 * words.length := by omega
    simp [hp, hlt]

/-- Clearing the tail leaves the positions below the size. -/
theorem marks_clearTail {words : List UInt64} {size : Nat} (h : words.length = wordCount size)
    (p : Nat) : marks (clearTail words size) p = (decide (p < size) && marks words p) := by
  rw [wordCount] at h
  unfold clearTail
  split
  · rename_i hz
    by_cases hm : marks words p = true
    · have := lt_of_marks hm
      have hp : p < size := by omega
      simp [hp]
    · simp [hm]
  · rename_i hz
    have hk : size % 64 < 64 := Nat.mod_lt _ (by decide)
    rw [marks, List.getElem?_modify, marks]
    -- Only the last word is cut; a position in an earlier one is below the size.
    by_cases hlast : words.length - 1 = p / 64
    · have hp : decide (p % 64 < size % 64) = decide (p < size) := by
        rw [decide_eq_decide]
        omega
      cases hw : words[p / 64]? with
      | none => simp
      | some word =>
        simp only [hlast, ↓reduceIte, Option.map_eq_map, Option.map_some, Option.getD_some,
          hasBit_and, hasBit_bit_sub_one hk, hp]
        exact Bool.and_comm _ _
    · by_cases hp : p < size
      · simp [hlast, hp]
      · have hnone : words[p / 64]? = none := List.getElem?_eq_none (by omega)
        simp [hnone]

/-! ## Valid sets -/

/-- As many words as the size takes, and no bit beyond the size. -/
structure Valid (s : PositionSet) : Prop where
  length_words : s.words.length = wordCount s.size
  lt_size : ∀ p, marks s.words p = true → p < s.size

/-- The empty set has as many words as it needs, and nothing in its tail. -/
theorem valid_empty (size : Nat) : (empty size).Valid :=
  ⟨by simp [empty], fun p h => by simp [empty] at h⟩

/-- Clearing the tail keeps the number of words. -/
theorem length_clearTail (words : List UInt64) (size : Nat) :
    (clearTail words size).length = words.length := by
  unfold clearTail
  split <;> simp

/-- Whatever the words were, clearing the tail makes a valid set of them. -/
theorem valid_clearTail {words : List UInt64} {size : Nat} (h : words.length = wordCount size) :
    Valid ⟨clearTail words size, size⟩ := by
  refine ⟨by rw [length_clearTail, h], fun p hp => ?_⟩
  rw [marks_clearTail h, Bool.and_eq_true, decide_eq_true_iff] at hp
  exact hp.1

/-- The full set has no bit beyond its size. -/
theorem valid_full (size : Nat) : (full size).Valid := valid_clearTail (by simp)

/-- The full set has the positions below its size. -/
theorem marks_full (size p : Nat) : marks (full size).words p = decide (p < size) := by
  have hi : p % 64 < 64 := Nat.mod_lt _ (by decide)
  rw [full, marks_clearTail (by simp)]
  by_cases hp : p < size
  · have hlt : p / 64 < wordCount size := by rw [wordCount]; omega
    rw [marks, List.getElem?_replicate, if_pos hlt, Option.getD_some, hasBit_not _ hi]
    simp [hp]
  · simp [hp]

/-- An insertion marks its position, unless that is not below the size. -/
theorem marks_insert {s : PositionSet} (hs : s.Valid) (p q : Nat) :
    marks (s.insert p).words q = (marks s.words q || decide (q = p ∧ p < s.size)) := by
  have hk : p % 64 < 64 := Nat.mod_lt _ (by decide)
  unfold insert
  split
  · rename_i hp
    rw [marks, List.getElem?_modify, marks]
    have hlen := hs.length_words
    rw [wordCount] at hlen
    by_cases hw : p / 64 = q / 64
    · have hq : decide (p % 64 = q % 64) = decide (q = p) := by
        rw [decide_eq_decide]
        omega
      have hlt : q / 64 < s.words.length := by omega
      simp [hw, hlt, hasBit_or, hasBit_bit hk, hp, hq]
    · have hq : q ≠ p := fun h => hw (h ▸ rfl)
      simp [hw, hq]
  · rename_i hp
    simp [hp]

/-- An insertion keeps the tail clear. -/
theorem valid_insert {s : PositionSet} (hs : s.Valid) (p : Nat) : (s.insert p).Valid := by
  refine ⟨?_, fun q hq => ?_⟩
  · unfold insert
    split
    · simpa using hs.length_words
    · exact hs.length_words
  · rw [marks_insert hs, Bool.or_eq_true, decide_eq_true_iff] at hq
    rw [size_insert]
    rcases hq with hq | ⟨rfl, hq⟩
    · exact hs.lt_size q hq
    · exact hq

/-- Inserting positions one after the other. -/
theorem foldl_insert (positions : List Nat) {s : PositionSet} (hs : s.Valid) :
    (positions.foldl insert s).Valid ∧ (positions.foldl insert s).size = s.size ∧
      ∀ q, marks (positions.foldl insert s).words q =
        (marks s.words q || decide (q ∈ positions ∧ q < s.size)) := by
  induction positions generalizing s with
  | nil => exact ⟨hs, rfl, fun q => by simp⟩
  | cons p positions ih =>
    obtain ⟨hv, hsize, hmarks⟩ := ih (valid_insert hs p)
    rw [size_insert] at hsize
    refine ⟨hv, hsize, fun q => ?_⟩
    rw [List.foldl_cons, hmarks, marks_insert hs, size_insert, Bool.eq_iff_iff]
    simp only [Bool.or_eq_true, decide_eq_true_iff, List.mem_cons]
    constructor
    · rintro ((h | ⟨rfl, h⟩) | ⟨hq, h⟩)
      · exact .inl h
      · exact .inr ⟨.inl rfl, h⟩
      · exact .inr ⟨.inr hq, h⟩
    · rintro (h | ⟨rfl | hq, h⟩)
      · exact .inl (.inl h)
      · exact .inl (.inr ⟨rfl, h⟩)
      · exact .inr ⟨hq, h⟩

/-- Sets of positions are valid, whatever is listed. -/
theorem valid_ofPositions (size : Nat) (positions : List Nat) :
    (ofPositions size positions).Valid :=
  (foldl_insert positions (valid_empty size)).1

@[simp] theorem size_ofPositions (size : Nat) (positions : List Nat) :
    (ofPositions size positions).size = size :=
  (foldl_insert positions (valid_empty size)).2.1

/-- **A set made of a list holds the positions listed that lie below its size.** -/
theorem marks_ofPositions (size : Nat) (positions : List Nat) (q : Nat) :
    marks (ofPositions size positions).words q = decide (q ∈ positions ∧ q < size) := by
  rw [ofPositions, (foldl_insert positions (valid_empty size)).2.2, empty, marks_replicate_zero,
    Bool.false_or]

section SameSize

variable {s t : PositionSet}

/-- Sets of one size have the same number of words. -/
theorem length_words_eq (hs : s.Valid) (ht : t.Valid) (h : s.size = t.size) :
    s.words.length = t.words.length := by
  rw [hs.length_words, ht.length_words, h]

/-- A union marks what one of the sets marks. -/
theorem marks_union (hs : s.Valid) (ht : t.Valid) (h : s.size = t.size) (p : Nat) :
    marks (s.union t).words p = (marks s.words p || marks t.words p) :=
  marks_combine hasBit_or rfl (length_words_eq hs ht h) p

/-- An intersection marks what both sets mark. -/
theorem marks_inter (hs : s.Valid) (ht : t.Valid) (h : s.size = t.size) (p : Nat) :
    marks (s.inter t).words p = (marks s.words p && marks t.words p) :=
  marks_combine hasBit_and rfl (length_words_eq hs ht h) p

/-- The union of sets of one size is valid. -/
theorem valid_union (hs : s.Valid) (ht : t.Valid) (h : s.size = t.size) : (s.union t).Valid := by
  refine ⟨by simpa [union] using hs.length_words, fun p hp => ?_⟩
  rw [marks_union hs ht h, Bool.or_eq_true] at hp
  rcases hp with hp | hp
  · exact hs.lt_size p hp
  · exact lt_of_lt_of_eq (ht.lt_size p hp) h.symm

/-- The intersection of sets of one size is valid. -/
theorem valid_inter (hs : s.Valid) (ht : t.Valid) (h : s.size = t.size) : (s.inter t).Valid := by
  refine ⟨by simpa [inter] using hs.length_words, fun p hp => ?_⟩
  rw [marks_inter hs ht h, Bool.and_eq_true] at hp
  exact hs.lt_size p hp.1

/-- A complement marks the positions below the size that the set does not. -/
theorem marks_complement (hs : s.Valid) (p : Nat) :
    marks s.complement.words p = (decide (p < s.size) && !marks s.words p) := by
  have hlen := hs.length_words
  rw [complement, marks_clearTail (by simpa using hlen), marks_map_not, hlen, wordCount]
  by_cases hp : p < s.size
  · have hlt : p < 64 * ((s.size + 63) / 64) := by omega
    simp [hp, hlt]
  · simp [hp]

/-- The tail of a complement is cleared. -/
theorem valid_complement (hs : s.Valid) : s.complement.Valid :=
  valid_clearTail (by simpa using hs.length_words)

end SameSize

/-! ## Listing -/

/-- The positions of a list of words, the first of which is word `i`. -/
theorem flatMap_bits_eq (words : List UInt64) (i : Nat) :
    (words.zipIdx i).flatMap (fun (word, j) => (bits word).map (64 * j + ·)) =
      (List.range' (64 * i) (64 * words.length)).filter fun p => marks words (p - 64 * i) := by
  induction words generalizing i with
  | nil => simp
  | cons word words ih =>
    -- The first word has the first 64 positions, and the others are counted from the next word
    -- on.
    have hsplit : List.range' (64 * i) (64 * (words.length + 1)) =
        (List.range 64).map (64 * i + ·) ++ List.range' (64 * (i + 1)) (64 * words.length) := by
      rw [List.range_eq_range', List.map_add_range', Nat.mul_add, Nat.add_comm (64 * _),
        Nat.mul_add, List.range'_append_1]
      simp
    rw [List.zipIdx_cons, List.flatMap_cons, ih, List.length_cons, hsplit, List.filter_append]
    congr 1
    · dsimp only
      rw [bits_eq_filter, List.filter_map]
      refine congrArg (List.map (64 * i + ·)) ?_
      refine List.filter_congr fun b hb => ?_
      have hb : b < 64 := List.mem_range.1 hb
      simp [marks, Nat.div_eq_of_lt hb, Nat.mod_eq_of_lt hb]
    · refine List.filter_congr fun p hp => ?_
      have hp := (List.mem_range'_1.1 hp).1
      have hdiv : (p - 64 * i) / 64 = (p - 64 * (i + 1)) / 64 + 1 := by omega
      have hmod : (p - 64 * i) % 64 = (p - 64 * (i + 1)) % 64 := by omega
      simp [marks, hdiv, hmod]

/-- **A valid set lists its positions in ascending order, each once.** -/
theorem Valid.items_eq {s : PositionSet} (hs : s.Valid) :
    s.items = (List.range s.size).filter (marks s.words) := by
  have hall := flatMap_bits_eq s.words 0
  have hle : s.size ≤ 64 * s.words.length := by
    rw [hs.length_words, wordCount]
    omega
  obtain ⟨extra, hextra⟩ := Nat.exists_eq_add_of_le hle
  have hbeyond : ∀ p ∈ (List.range extra).map (s.size + ·), ¬marks s.words p = true := by
    intro p hp hm
    obtain ⟨b, -, rfl⟩ := List.mem_map.1 hp
    have := hs.lt_size _ hm
    omega
  rw [items, hall, hextra]
  simp only [Nat.mul_zero, Nat.sub_zero, ← List.range_eq_range']
  rw [List.range_add, List.filter_append, List.filter_eq_nil_iff.2 hbeyond, List.append_nil]

end PositionSet
end MusicCollections

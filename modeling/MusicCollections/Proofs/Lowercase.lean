/-
# Lower case of a part

Of all characters only the capital sigma looks at what stands around it, so the lower case of
a text is that of its parts, each between the others (`lowerCharsIn_append`).  A part that
keeps the form of its capital sigmas has there the lower case that it has alone
(`SigmasKept.lowered_part`).

Whatever stands around it, a part keeps them unless one of its capital sigmas is loose
(`sigmasKept_of_not_loose`): in its first word, with nothing cased in the part before it or
after it, or in its last word, with nothing but the end after it.  Such a part is not found in
the lower case of some text that it stands in (`SigmaLoose.exists_unmatched`).
-/

import Mathlib.Data.List.Infix
import Mathlib.Data.List.TakeWhile
import MusicCollections.Text.Lowercase

namespace MusicCollections
namespace Text

variable {c : Char} {cs before before' after after' front back part : List Char}

/-! ## What decides the form of a sigma -/

/-- What stands after a character that is not passed over does not count. -/
theorem leadsToCased_append (h : ∃ c ∈ cs, isCaseIgnorable c = false) (ds : List Char) :
    leadsToCased (cs ++ ds) = leadsToCased cs := by
  have hne : cs.dropWhile isCaseIgnorable ≠ [] := by
    obtain ⟨c, hc, hignorable⟩ := h
    intro hnil
    rw [List.dropWhile_eq_nil_iff.1 hnil c hc] at hignorable
    cases hignorable
  obtain ⟨c, rest, hrest⟩ := List.exists_cons_of_ne_nil hne
  rw [leadsToCased, leadsToCased, List.dropWhile_append, hrest]
  rfl

/-- Characters that are passed over lead to what stands after them. -/
theorem leadsToCased_append_of_ignorable (h : ∀ c ∈ cs, isCaseIgnorable c = true)
    (ds : List Char) : leadsToCased (cs ++ ds) = leadsToCased ds := by
  rw [leadsToCased, leadsToCased, List.dropWhile_append_of_pos h]

/-- Characters that are passed over lead to no letter. -/
theorem leadsToCased_of_ignorable (h : ∀ c ∈ cs, isCaseIgnorable c = true) :
    leadsToCased cs = false := by
  have hlead := leadsToCased_append_of_ignorable h []
  rwa [List.append_nil] at hlead

/-! ## Lower case between other characters -/

/-- The lower case of a character; a capital sigma has another one where it ends a word. -/
def lowerForm (ends : Bool) (c : Char) : List Char :=
  if c = 'Σ' then [if ends then 'ς' else 'σ']
  else if c = 'İ' then ['i', '\u0307']
  else [lowerChar c]

/-- The lower case of characters that stand between `before`, which are given backwards, and
`after`. -/
def lowerCharsIn (before : List Char) : (cs after : List Char) → List Char
  | [], _ => []
  | c :: cs, after =>
    lowerForm (endsWord before (cs ++ after)) c ++ lowerCharsIn (c :: before) cs after

/-- Lower-casing looks back at what it has passed and ahead at what is left. -/
theorem lowerCharsAfter_eq (before cs : List Char) :
    lowerCharsAfter before cs = lowerCharsIn before cs [] := by
  induction cs generalizing before with
  | nil => rfl
  | cons c cs ih =>
    rw [lowerCharsAfter, lowerCharsIn, ih, lowerForm, List.append_nil]
    split_ifs <;> rfl

/-- A text is lower-cased with nothing around it. -/
theorem lowerChars_eq (cs : List Char) : lowerChars cs = lowerCharsIn [] cs [] :=
  lowerCharsAfter_eq [] cs

/-- **Each part of the characters is lower-cased between the others.** -/
theorem lowerCharsIn_append (before cs ds after : List Char) :
    lowerCharsIn before (cs ++ ds) after =
      lowerCharsIn before cs (ds ++ after) ++ lowerCharsIn (cs.reverse ++ before) ds after := by
  induction cs generalizing before with
  | nil => rfl
  | cons c cs ih =>
    rw [List.cons_append, lowerCharsIn, lowerCharsIn, ih]
    simp

/-- The lower case of a whole, around a part of it. -/
theorem lowerChars_around (before part after : List Char) :
    lowerChars (before ++ part ++ after) = lowerCharsIn [] before (part ++ after) ++
      lowerCharsIn before.reverse part after ++
        lowerCharsIn (part.reverse ++ before.reverse) after [] := by
  rw [lowerChars_eq, lowerCharsIn_append, lowerCharsIn_append, List.append_nil, List.append_nil,
    List.append_nil, List.reverse_append]

/-- Only the form of sigma depends on where a word ends. -/
theorem lowerForm_congr {ends ends' : Bool} (h : c = 'Σ' → ends = ends') :
    lowerForm ends c = lowerForm ends' c := by
  by_cases hsigma : c = 'Σ'
  · rw [h hsigma]
  · rw [lowerForm, lowerForm, if_neg hsigma, if_neg hsigma]

/-- **Where the capital sigmas have the same form, the lower case is the same.** -/
theorem lowerCharsIn_congr
    (h : ∀ front back, part = front ++ 'Σ' :: back →
      endsWord (front.reverse ++ before) (back ++ after) =
        endsWord (front.reverse ++ before') (back ++ after')) :
    lowerCharsIn before part after = lowerCharsIn before' part after' := by
  induction part generalizing before before' with
  | nil => rfl
  | cons c cs ih =>
    have hfirst : lowerForm (endsWord before (cs ++ after)) c =
        lowerForm (endsWord before' (cs ++ after')) c := by
      refine lowerForm_congr ?_
      rintro rfl
      exact h [] cs rfl
    have hrest : lowerCharsIn (c :: before) cs after = lowerCharsIn (c :: before') cs after' :=
      ih fun front back hcs => by
        simpa using h (c :: front) back (by rw [hcs, List.cons_append])
    rw [lowerCharsIn, lowerCharsIn, hfirst, hrest]

/-! ## Parts that keep their lower case -/

/-- Between the characters, each capital sigma of the part has the form that it has when the
part stands alone. -/
def SigmasKept (before part after : List Char) : Prop :=
  ∀ front back, part = front ++ 'Σ' :: back →
    endsWord (front.reverse ++ before) (back ++ after) = endsWord front.reverse back

/-- **A part that keeps its sigmas is found in the lower case of the whole.** -/
theorem SigmasKept.lowered_part (h : SigmasKept before.reverse part after) :
    lowerChars part <:+: lowerChars (before ++ part ++ after) := by
  have hpart : lowerCharsIn before.reverse part after = lowerChars part := by
    rw [lowerChars_eq]
    exact lowerCharsIn_congr fun front back hsplit => by
      simpa using h front back hsplit
  rw [lowerChars_around, hpart]
  exact List.infix_append _ _ _

/-- What stands outside of the part decides the form of one of its capital sigmas. -/
def SigmaLoose (part : List Char) : Prop :=
  ∃ front back, part = front ++ 'Σ' :: back ∧
    ((∀ c ∈ front, isCaseIgnorable c = true) ∧ leadsToCased back = false ∨
      (∀ c ∈ back, isCaseIgnorable c = true) ∧ leadsToCased front.reverse = true)

/-- **A part without a loose sigma keeps its sigmas**, wherever it stands. -/
theorem sigmasKept_of_not_loose (h : ¬SigmaLoose part) (before after : List Char) :
    SigmasKept before part after := by
  intro front back hsplit
  obtain ⟨hstart, hend⟩ := not_or.1 fun hloose => h ⟨front, back, hsplit, hloose⟩
  have hdecides : ∀ cs : List Char, (¬∀ c ∈ cs, isCaseIgnorable c = true) →
      ∃ c ∈ cs, isCaseIgnorable c = false := by
    intro cs hcs
    simpa using hcs
  unfold endsWord
  cases hback : leadsToCased back with
  | true =>
    -- Something cased follows in the part, so the sigma ends no word.
    have hinside : ∃ c ∈ back, isCaseIgnorable c = false := by
      refine hdecides back fun hall => ?_
      rw [leadsToCased_of_ignorable hall] at hback
      cases hback
    rw [leadsToCased_append hinside, hback, Bool.not_true, Bool.and_false, Bool.and_false]
  | false =>
    have hfront : ∃ c ∈ front.reverse, isCaseIgnorable c = false := by
      simpa using hdecides front fun hall => hstart ⟨hall, hback⟩
    rw [leadsToCased_append hfront]
    cases hcased : leadsToCased front.reverse with
    | false => rfl
    | true =>
      rw [leadsToCased_append (hdecides back fun hall => hend ⟨hall, hcased⟩), hback]

/-! ## Parts with a loose sigma -/

/-- Sigma is a letter that is not passed over. -/
theorem isCaseIgnorable_sigma : isCaseIgnorable 'Σ' = false := rfl

/-- There is no sigma among characters that are passed over. -/
theorem sigma_not_mem_of_ignorable (h : ∀ c ∈ cs, isCaseIgnorable c = true) : 'Σ' ∉ cs := by
  intro hmem
  have hsigma := h 'Σ' hmem
  rw [isCaseIgnorable_sigma] at hsigma
  cases hsigma

/-- Looking for a cased character ends at a sigma. -/
theorem leadsToCased_append_sigma (cs ds ds' : List Char) :
    leadsToCased (cs ++ 'Σ' :: ds) = leadsToCased (cs ++ 'Σ' :: ds') := by
  have hstop : ∀ rest, leadsToCased (cs ++ 'Σ' :: rest) = leadsToCased (cs ++ ['Σ']) := by
    intro rest
    rw [← List.singleton_append, ← List.append_assoc]
    exact leadsToCased_append ⟨'Σ', by simp, isCaseIgnorable_sigma⟩ rest
  rw [hstop ds, hstop ds']

/-- Without a sigma, what stands around makes no difference. -/
theorem lowerCharsIn_of_not_mem (h : 'Σ' ∉ cs) (before before' after after' : List Char) :
    lowerCharsIn before cs after = lowerCharsIn before' cs after' :=
  lowerCharsIn_congr fun front back hsplit => absurd (by simp [hsplit]) h

/-- What stands on the other side of a sigma does not count: each side is lower-cased without
it. -/
theorem lowerCharsIn_sigma (before front back after : List Char) :
    lowerCharsIn before (front ++ 'Σ' :: back) after =
      lowerCharsIn before front ['Σ'] ++
        (if endsWord (front.reverse ++ before) (back ++ after) then 'ς' else 'σ') ::
          lowerCharsIn ['Σ'] back after := by
  have hfront : lowerCharsIn before front ('Σ' :: back ++ after) =
      lowerCharsIn before front ['Σ'] :=
    lowerCharsIn_congr fun _ right _ => by
      rw [endsWord, endsWord, List.cons_append, leadsToCased_append_sigma right (back ++ after) []]
  have hback : lowerCharsIn ('Σ' :: (front.reverse ++ before)) back after =
      lowerCharsIn ['Σ'] back after :=
    lowerCharsIn_congr fun left _ _ => by
      rw [endsWord, endsWord,
        leadsToCased_append_sigma left.reverse (front.reverse ++ before) []]
  rw [lowerCharsIn_append, lowerCharsIn, lowerForm, if_pos rfl, hfront, hback]
  rfl

/-- Characters are not found where one of them has another form and is not there besides. -/
theorem not_part_of_other_form {α : Type} [DecidableEq α] {pre post front back : List α} {a b : α}
    (hab : b ≠ a) (hpre : a ∉ pre) (hpost : a ∉ post) :
    ¬front ++ a :: back <:+: pre ++ (front ++ b :: back) ++ post := by
  intro h
  have hcount := h.sublist.count_le a
  simp only [List.count_append, List.count_cons_self, List.count_cons_of_ne hab,
    List.count_eq_zero_of_not_mem hpre, List.count_eq_zero_of_not_mem hpost] at hcount
  omega

/-- **A part with a loose sigma is not found in the lower case of some text that it stands
in**: of the part after a letter, or of the part before one. -/
theorem SigmaLoose.exists_unmatched (h : SigmaLoose part) :
    ∃ before after, ¬lowerChars part <:+: lowerChars (before ++ part ++ after) := by
  have hletter : leadsToCased ['a'] = true := rfl
  obtain ⟨front, back, rfl, ⟨hfront, hback⟩ | ⟨hback, hfront⟩⟩ := h
  · have hreverse : ∀ c ∈ front.reverse, isCaseIgnorable c = true := by simpa using hfront
    have hsame := lowerCharsIn_of_not_mem (sigma_not_mem_of_ignorable hfront) ['a'] [] ['Σ'] ['Σ']
    have halone : endsWord (front.reverse ++ []) (back ++ []) = false := by
      rw [List.append_nil, endsWord, leadsToCased_of_ignorable hreverse, Bool.false_and]
    have hthere : endsWord (front.reverse ++ ['a'].reverse) (back ++ []) = true := by
      rw [List.append_nil, endsWord, leadsToCased_append_of_ignorable hreverse, hback]
      exact hletter
    -- After a letter the sigma ends a word, which it does not where the part stands alone.
    refine ⟨['a'], [], ?_⟩
    rw [lowerChars_around, lowerChars_eq, lowerCharsIn_sigma, lowerCharsIn_sigma, halone, hthere,
      List.reverse_singleton, hsame]
    exact not_part_of_other_form (by decide) (show 'σ' ∉ ['a'] by decide) List.not_mem_nil
  · have hsame := lowerCharsIn_of_not_mem (sigma_not_mem_of_ignorable hback) ['Σ'] ['Σ'] ['a'] []
    have halone : endsWord (front.reverse ++ []) (back ++ []) = true := by
      rw [List.append_nil, List.append_nil, endsWord, hfront, leadsToCased_of_ignorable hback]
      rfl
    have hthere : endsWord (front.reverse ++ [].reverse) (back ++ ['a']) = false := by
      rw [endsWord, leadsToCased_append_of_ignorable hback, hletter, Bool.not_true, Bool.and_false]
    -- Before a letter it ends none, and alone it does.
    refine ⟨[], ['a'], ?_⟩
    rw [lowerChars_around, lowerChars_eq, lowerCharsIn_sigma, lowerCharsIn_sigma, halone, hthere,
      hsame]
    exact not_part_of_other_form (by decide) List.not_mem_nil (show 'ς' ∉ ['a'] by decide)

end Text
end MusicCollections

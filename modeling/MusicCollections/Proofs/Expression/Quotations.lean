/-
# What stands between quotes

A quotation ends at its first quote that no backslash takes the meaning from, which is the
first with an even number of backslashes right before it (`EndsQuotation`).  What is read
after an opening quote is the quotation that begins there, with its escapes resolved
(`quotation_of_readQuoted`), and nothing is read exactly where no quote ends it
(`readQuoted_eq_none_iff`).

A quotation stands for its own characters only if no backslash in it takes the meaning from
the character after it (`Quotation.verbatim_iff`).
-/

import Mathlib.Algebra.Group.Even
import Mathlib.Algebra.Ring.Parity
import Mathlib.Data.List.Chain
import MusicCollections.Expression.Token

namespace MusicCollections
namespace Token

/-- The characters between two quotes, and what they stand for. -/
inductive Quotation : List Char → List Char → Prop
  | nil : Quotation [] []
  | escaped {c cs value} : c = '"' ∨ c = '\\' → Quotation cs value →
      Quotation ('\\' :: c :: cs) (c :: value)
  | plain {c cs value} : c ≠ '"' → c ≠ '\\' → Quotation cs value →
      Quotation (c :: cs) (c :: value)
  /-- A backslash before any other character is itself. -/
  | backslash {c cs value} : c ≠ '"' → c ≠ '\\' → Quotation (c :: cs) value →
      Quotation ('\\' :: c :: cs) ('\\' :: value)

variable {c : Char} {cs body rest value : List Char} {n : Nat}

/-! ## Reading a quotation -/

/-- **A quotation is read**, whatever follows its closing quote. -/
theorem Quotation.readQuoted (h : Quotation body value) (rest : List Char) :
    readQuoted (body ++ '"' :: rest) = some (value, body.length + 1) := by
  induction h with
  | nil => rfl
  | escaped hc _ ih => rcases hc with rfl | rfl <;> simp [Token.readQuoted, ih]
  | plain hquote hbackslash _ ih => simp [Token.readQuoted, hbackslash, ih]
  | backslash hquote hbackslash _ ih =>
    rw [List.cons_append] at ih
    simp [Token.readQuoted, hquote, hbackslash, ih]

/-- **What is read is a quotation**, up to the quote that closes it. -/
theorem quotation_of_readQuoted (h : readQuoted cs = some (value, n)) :
    ∃ body rest, cs = body ++ '"' :: rest ∧ n = body.length + 1 ∧ Quotation body value := by
  fun_induction readQuoted cs generalizing value n with
  | case1 => cases h
  | case2 cs =>
    obtain ⟨rfl, rfl⟩ := Prod.mk.inj (Option.some.inj h)
    exact ⟨[], cs, rfl, rfl, .nil⟩
  | case3 cs ih =>
    obtain ⟨⟨v, m⟩, hread, hfound⟩ := Option.map_eq_some_iff.1 h
    obtain ⟨rfl, rfl⟩ := Prod.mk.inj hfound
    obtain ⟨body, rest, rfl, rfl, hbody⟩ := ih hread
    exact ⟨'\\' :: '"' :: body, rest, rfl, rfl, .escaped (.inl rfl) hbody⟩
  | case4 cs ih =>
    obtain ⟨⟨v, m⟩, hread, hfound⟩ := Option.map_eq_some_iff.1 h
    obtain ⟨rfl, rfl⟩ := Prod.mk.inj hfound
    obtain ⟨body, rest, rfl, rfl, hbody⟩ := ih hread
    exact ⟨'\\' :: '\\' :: body, rest, rfl, rfl, .escaped (.inr rfl) hbody⟩
  | case5 c cs hquote hescapedQuote hescapedBackslash ih =>
    obtain ⟨⟨v, m⟩, hread, hfound⟩ := Option.map_eq_some_iff.1 h
    obtain ⟨rfl, rfl⟩ := Prod.mk.inj hfound
    obtain ⟨body, rest, rfl, rfl, hbody⟩ := ih hread
    refine ⟨c :: body, rest, rfl, rfl, ?_⟩
    by_cases hc : c = '\\'
    · -- The backslash is not the last character, and escapes nothing.
      subst hc
      cases body with
      | nil => exact absurd rfl (hescapedQuote rest rfl)
      | cons d body =>
        refine .backslash ?_ ?_ hbody
        · rintro rfl
          exact hescapedQuote _ rfl rfl
        · rintro rfl
          exact hescapedBackslash _ rfl rfl
    · exact .plain hquote hc hbody

/-- A quotation ends in one place. -/
theorem Quotation.body_unique {body' rest' value' : List Char} (h : Quotation body value)
    (h' : Quotation body' value') (heq : body ++ '"' :: rest = body' ++ '"' :: rest') :
    body = body' ∧ rest = rest' := by
  have hread := h.readQuoted rest
  rw [heq, h'.readQuoted rest'] at hread
  have hlength : body'.length = body.length := by
    have hn := (Prod.mk.inj (Option.some.inj hread)).2
    omega
  obtain ⟨hbody, hrest⟩ := List.append_inj heq hlength.symm
  exact ⟨hbody, List.tail_eq_of_cons_eq hrest⟩

/-! ## Where a quotation ends -/

/-- How many backslashes the characters end in. -/
def backslashesAtEnd (cs : List Char) : Nat := (cs.reverse.takeWhile (· = '\\')).length

/-- A quote that stands after the characters of a quotation ends it. -/
def EndsQuotation (before : List Char) : Prop := Even (backslashesAtEnd before)

instance (before : List Char) : Decidable (EndsQuotation before) := by
  unfold EndsQuotation
  infer_instance

/-- There are no more backslashes at the end than characters. -/
theorem backslashesAtEnd_le (cs : List Char) : backslashesAtEnd cs ≤ cs.length := by
  have h := (List.takeWhile_sublist (l := cs.reverse) (p := (· = '\\'))).length_le
  rwa [List.length_reverse] at h

/-- One more character in front counts if it continues a run that reaches the end. -/
theorem backslashesAtEnd_cons (c : Char) (cs : List Char) :
    backslashesAtEnd (c :: cs) =
      if c = '\\' ∧ backslashesAtEnd cs = cs.length then cs.length + 1
      else backslashesAtEnd cs := by
  unfold backslashesAtEnd
  rw [List.reverse_cons, List.takeWhile_append, List.length_reverse]
  by_cases hall : (cs.reverse.takeWhile (· = '\\')).length = cs.length
  · by_cases hc : c = '\\' <;> simp [hall, hc]
  · simp [hall]

/-- A character other than the backslash makes no difference to the end of a quotation. -/
theorem endsQuotation_cons_of_ne (h : c ≠ '\\') (cs : List Char) :
    EndsQuotation (c :: cs) ↔ EndsQuotation cs := by
  rw [EndsQuotation, backslashesAtEnd_cons, if_neg fun hc => h hc.1, EndsQuotation]

/-- A backslash does not reach the end over a character that is none. -/
theorem endsQuotation_backslash (h : c ≠ '\\') (cs : List Char) :
    EndsQuotation ('\\' :: c :: cs) ↔ EndsQuotation (c :: cs) := by
  have hcs : backslashesAtEnd (c :: cs) = backslashesAtEnd cs := by
    rw [backslashesAtEnd_cons, if_neg fun hc => h hc.1]
  have hle := backslashesAtEnd_le cs
  rw [EndsQuotation, backslashesAtEnd_cons, if_neg, EndsQuotation]
  rintro ⟨-, hall⟩
  rw [hcs, List.length_cons] at hall
  omega

/-- An escaped character is passed over. -/
theorem endsQuotation_escaped (h : c = '"' ∨ c = '\\') (cs : List Char) :
    EndsQuotation ('\\' :: c :: cs) ↔ EndsQuotation cs := by
  rcases h with rfl | rfl
  · rw [endsQuotation_backslash (by decide), endsQuotation_cons_of_ne (by decide)]
  · have hle := backslashesAtEnd_le cs
    unfold EndsQuotation
    rw [backslashesAtEnd_cons, backslashesAtEnd_cons, List.length_cons]
    by_cases hall : backslashesAtEnd cs = cs.length
    · simp [hall, Nat.even_add_one]
    · have hnot : backslashesAtEnd cs ≠ cs.length + 1 := by omega
      simp [hall, hnot]

/-- The closing quote of a quotation ends it. -/
theorem Quotation.endsQuotation (h : Quotation body value) : EndsQuotation body := by
  induction h with
  | nil => exact Even.zero
  | escaped hc _ ih => exact (endsQuotation_escaped hc _).2 ih
  | plain _ hbackslash _ ih => exact (endsQuotation_cons_of_ne hbackslash _).2 ih
  | backslash _ hbackslash _ ih => exact (endsQuotation_backslash hbackslash _).2 ih

/-- **Nothing is read exactly where no quote ends the quotation.** -/
theorem readQuoted_eq_none_iff : readQuoted cs = none ↔
    ∀ before after, cs = before ++ '"' :: after → ¬EndsQuotation before := by
  constructor
  · intro h
    fun_induction readQuoted cs with
    | case1 => simp
    | case2 => cases h
    | case3 cs ih =>
      rintro (_ | ⟨a, _ | ⟨b, before⟩⟩) after heq
      · simp at heq
      · obtain ⟨rfl, -⟩ := List.cons.inj heq
        decide
      · simp only [List.cons_append, List.cons.injEq] at heq
        obtain ⟨rfl, rfl, hcs⟩ := heq
        -- An escaped quote: the reading goes on after it, and so does the count of backslashes.
        rw [endsQuotation_escaped (.inl rfl)]
        exact ih (Option.map_eq_none_iff.1 h) before after hcs
    | case4 cs ih =>
      rintro (_ | ⟨a, _ | ⟨b, before⟩⟩) after heq
      · simp at heq
      · simp at heq
      · simp only [List.cons_append, List.cons.injEq] at heq
        obtain ⟨rfl, rfl, hcs⟩ := heq
        rw [endsQuotation_escaped (.inr rfl)]
        exact ih (Option.map_eq_none_iff.1 h) before after hcs
    | case5 c cs hquote hescapedQuote hescapedBackslash ih =>
      rintro (_ | ⟨a, before⟩) after heq
      · exact absurd (List.cons.inj heq).1 hquote
      · obtain ⟨rfl, hcs⟩ := List.cons.inj heq
        have hbefore := ih (Option.map_eq_none_iff.1 h) before after hcs
        by_cases hc : c = '\\'
        · subst hc
          cases before with
          | nil => exact absurd hcs (hescapedQuote after rfl)
          | cons d before =>
            have hd : d ≠ '\\' := by
              rintro rfl
              exact hescapedBackslash _ rfl hcs
            rwa [endsQuotation_backslash hd]
        · rwa [endsQuotation_cons_of_ne hc]
  · intro h
    cases hread : readQuoted cs with
    | none => rfl
    | some found =>
      obtain ⟨body, rest, hcs, -, hbody⟩ := quotation_of_readQuoted hread
      exact absurd hbody.endsQuotation (h body rest hcs)

/-! ## Quotations that stand for themselves -/

/-- No backslash takes the meaning from the character after it, up to the closing quote. -/
def Verbatim (cs : List Char) : Prop :=
  (cs ++ ['"']).IsChain fun c d => c = '\\' → d ≠ '"' ∧ d ≠ '\\'

instance (cs : List Char) : Decidable (Verbatim cs) := by
  unfold Verbatim
  infer_instance

/-- Escapes only make a text longer. -/
theorem Quotation.length_le (h : Quotation body value) : value.length ≤ body.length := by
  induction h with
  | nil => exact Nat.le_refl _
  | escaped _ _ ih | plain _ _ _ ih | backslash _ _ _ ih =>
    simp only [List.length_cons] at ih ⊢
    omega

/-- Every escape makes the quotation longer than what it stands for. -/
theorem Quotation.verbatim (h : Quotation body value) (hlength : value.length = body.length) :
    Verbatim body := by
  unfold Verbatim
  induction h with
  | nil => exact List.isChain_singleton _
  | escaped _ h _ =>
    have hle := h.length_le
    simp only [List.length_cons] at hlength
    omega
  | plain _ hbackslash _ ih =>
    simp only [List.length_cons, Nat.add_right_cancel_iff] at hlength
    exact List.isChain_cons.2 ⟨fun _ _ hc => absurd hc hbackslash, ih hlength⟩
  | backslash hquote hbackslash _ ih =>
    simp only [List.length_cons, Nat.add_right_cancel_iff] at hlength ih
    exact List.isChain_cons_cons.2 ⟨fun _ => ⟨hquote, hbackslash⟩, ih hlength⟩

/-- **Characters without a quote stand for themselves between quotes if and only if no
backslash takes a meaning.** -/
theorem Quotation.verbatim_iff (hquote : '"' ∉ cs) : Quotation cs cs ↔ Verbatim cs := by
  refine ⟨fun h => h.verbatim rfl, fun h => ?_⟩
  unfold Verbatim at h
  induction cs with
  | nil => exact .nil
  | cons c cs ih =>
    rw [List.mem_cons, not_or] at hquote
    obtain ⟨hnext, hrest⟩ := List.isChain_cons.1 h
    have hcs := ih hquote.2 hrest
    by_cases hc : c = '\\'
    · subst hc
      cases cs with
      | nil => exact absurd rfl (hnext '"' rfl rfl).1
      | cons d cs =>
        obtain ⟨hd, hd'⟩ := hnext d rfl rfl
        exact .backslash hd hd' hcs
    · exact .plain (Ne.symm hquote.1) hc hcs

end Token
end MusicCollections

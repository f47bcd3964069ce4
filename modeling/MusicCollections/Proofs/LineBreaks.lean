/-
# Texts without line breaks

What a message cites by escapes breaks no line, whatever it is: characters and names between
quotes (`hasLineBreak_quotedChar`, `hasLineBreak_quoted`), and numbers.  What it cites as it
is breaks a line if it holds one.  The words of an expression hold none; its quoted texts,
and the names that are written so, hold no character that the expression does not
(`hasLineBreak_of_mem_namesIn`).
-/

import MusicCollections.Proofs.Expression.Reading
import MusicCollections.Proofs.Expression.Tiling
import MusicCollections.Store.Definitions

namespace MusicCollections

namespace Definitions

variable {s t : String}

/-- A text stays on its line if it has neither a line feed nor a carriage return. -/
theorem hasLineBreak_eq_false_iff :
    hasLineBreak s = false ↔ ∀ c ∈ s.toList, c ≠ '\n' ∧ c ≠ '\r' := by
  simp [hasLineBreak]

/-- Two texts together break the line if one of them does. -/
@[simp] theorem hasLineBreak_append (s t : String) :
    hasLineBreak (s ++ t) = (hasLineBreak s || hasLineBreak t) := by
  simp [hasLineBreak]

/-- What has only characters of a text of one line is one line. -/
theorem hasLineBreak_of_subset (hst : s.toList ⊆ t.toList) (h : hasLineBreak t = false) :
    hasLineBreak s = false := by
  rw [hasLineBreak_eq_false_iff] at h ⊢
  exact fun c hc => h c (hst hc)

/-- Texts together break the line if one of them does. -/
theorem hasLineBreak_join (texts : List String) :
    hasLineBreak (String.join texts) = texts.any hasLineBreak := by
  induction texts with
  | nil => rfl
  | cons s texts ih => rw [String.join_cons, hasLineBreak_append, ih, List.any_cons]

/-- Texts that break no line break none with a separator between them that breaks none. -/
theorem hasLineBreak_join_sep {sep : String} {texts : List String}
    (hsep : hasLineBreak sep = false) (h : ∀ s ∈ texts, hasLineBreak s = false) :
    hasLineBreak (Text.join sep texts) = false := by
  rw [hasLineBreak_eq_false_iff] at hsep ⊢
  intro c hc
  rcases Text.mem_join hc with hc | ⟨s, hs, hc⟩
  · exact hsep c hc
  · exact hasLineBreak_eq_false_iff.1 (h s hs) c hc

/-! ## Numbers and escapes -/

/-- The digits of a number are digits of its base. -/
theorem exists_digitChar_of_mem_toDigits {b n : Nat} {c : Char} (hb : 1 < b)
    (h : c ∈ Nat.toDigits b n) : ∃ d < b, c = Nat.digitChar d := by
  induction n using Nat.strongRecOn with
  | ind n ih =>
    rw [Nat.toDigits_eq_if hb] at h
    split at h
    · rename_i hn
      exact ⟨n, hn, List.mem_singleton.1 h⟩
    · rename_i hn
      rcases List.mem_append.1 h with h | h
      · exact ih (n / b) (Nat.div_lt_self (by omega) hb) h
      · exact ⟨n % b, Nat.mod_lt n (by omega), List.mem_singleton.1 h⟩

/-- The digits of a number break no line. -/
theorem hasLineBreak_toDigits {b : Nat} (hb : 1 < b) (hbound : b ≤ 16) (n : Nat) :
    hasLineBreak (String.ofList (Nat.toDigits b n)) = false := by
  have hdigit : ∀ d < 16, Nat.digitChar d ≠ '\n' ∧ Nat.digitChar d ≠ '\r' := by decide
  rw [hasLineBreak_eq_false_iff, String.toList_ofList]
  intro c hc
  obtain ⟨d, hd, rfl⟩ := exists_digitChar_of_mem_toDigits hb hc
  exact hdigit d (by omega)

/-- A number breaks no line. -/
@[simp] theorem hasLineBreak_repr (n : Nat) : hasLineBreak n.repr = false := by
  rw [Nat.repr_eq_ofList_toDigits, hasLineBreak_toDigits (by decide) (by decide)]

/-- An escape by number breaks no line. -/
theorem hasLineBreak_codePointEscape (c : Char) :
    hasLineBreak (Text.codePointEscape c) = false := by
  rw [Text.codePointEscape, hasLineBreak_append, hasLineBreak_append,
    hasLineBreak_toDigits (by decide) (by decide)]
  decide

/-- **An escape breaks no line**, whatever it stands for. -/
theorem hasLineBreak_escapeChar (quote c : Char) :
    hasLineBreak (Text.escapeChar quote c) = false := by
  unfold Text.escapeChar
  split_ifs with _ _ hfeed hreturn
  iterate 5 decide
  · simp [hasLineBreak, hfeed, hreturn]
  · exact hasLineBreak_codePointEscape c
  · simp [hasLineBreak, hfeed, hreturn]

/-- A character between quotes breaks no line. -/
@[simp] theorem hasLineBreak_quotedChar (c : Char) :
    hasLineBreak (Text.quotedChar c) = false := by
  rw [Text.quotedChar, hasLineBreak_append, hasLineBreak_append, hasLineBreak_escapeChar]
  decide

/-- **A quoted text breaks no line.** -/
@[simp] theorem hasLineBreak_quoted (s : String) : hasLineBreak (Text.quoted s) = false := by
  have hbody : hasLineBreak (String.join (s.toList.map (Text.escapeChar '"'))) = false := by
    rw [hasLineBreak_join, List.any_map, List.any_eq_false]
    intro c _
    simp [hasLineBreak_escapeChar]
  rw [Text.quoted, hasLineBreak_append, hasLineBreak_append, hbody]
  decide

end Definitions

open Definitions

/-! ## Tokens -/

namespace Token

variable {cs body value : List Char} {kind : TokenKind} {s : String}

/-- A quotation stands for characters that it has. -/
theorem Quotation.subset (h : Quotation body value) : value ⊆ body := by
  induction h with
  | nil => exact List.Subset.refl []
  | escaped _ _ ih => exact List.subset_cons_of_subset _ (List.cons_subset_cons _ ih)
  | plain _ _ _ ih | backslash _ _ _ ih => exact List.cons_subset_cons _ ih

/-- A quoted text has only characters that stand in its token. -/
theorem Lexeme.subset_of_quoted (h : Lexeme cs (.quoted s)) : s.toList ⊆ cs := by
  generalize hkind : TokenKind.quoted s = kind at h
  cases h with
  | opening | closing => cases hkind
  | @quoted body value hbody =>
    obtain rfl := TokenKind.quoted.inj hkind
    rw [String.toList_ofList]
    intro c hc
    exact List.mem_cons_of_mem _ (List.mem_append_left _ (hbody.subset hc))
  | word =>
    rw [kindOfWord, operator?] at hkind
    split_ifs at hkind <;> cases hkind

/-- A word breaks no line. -/
theorem hasLineBreak_of_isBare (h : IsBare s.toList) : hasLineBreak s = false := by
  rw [hasLineBreak_eq_false_iff]
  intro c hc
  have hword := h c hc
  constructor <;>
    · rintro rfl
      exact absurd hword (by decide)

/-- A bare word breaks no line. -/
theorem Lexeme.hasLineBreak_of_word (h : Lexeme cs (.word s)) : hasLineBreak s = false := by
  generalize hkind : TokenKind.word s = kind at h
  cases h with
  | opening | closing | quoted => cases hkind
  | word _ hbare =>
    rw [kindOfWord, operator?] at hkind
    split_ifs at hkind <;> cases hkind
    exact hasLineBreak_of_isBare (by rwa [String.toList_ofList])

/-- A token is shown with a line break only where it is a quoted text with one. -/
theorem Lexeme.hasLineBreak_shown (h : Lexeme cs kind) :
    hasLineBreak kind.shown = true ↔ ∃ s, kind = .quoted s ∧ hasLineBreak s = true := by
  cases kind with
  | word w =>
    have hquote : hasLineBreak "`" = false := by decide
    simp [TokenKind.shown, h.hasLineBreak_of_word, hquote]
  | quoted s =>
    have hquote : hasLineBreak "\"" = false := by decide
    simp [TokenKind.shown, hquote]
  | and | or | not | opening | closing | finish =>
    simp only [reduceCtorEq, false_and, exists_false, iff_false, Bool.not_eq_true]
    decide

end Token

/-! ## The tokens and the names of a text -/

section Tokens

variable {text name : String} {tokens : List Token} {t : Token} {e : Expression}

/-- Every token but the end has its characters in the text. -/
theorem lexeme_of_mem_tokens (htokens : tokenize text = .ok tokens) (ht : t ∈ tokens) :
    t.kind = .finish ∨ Token.Lexeme t.text.toList t.kind ∧ t.text.toList ⊆ text.toList := by
  obtain ⟨ts, rfl, htiles⟩ := tiles_of_tokenize htokens
  rcases List.mem_append.1 ht with ht | ht
  · obtain ⟨hlexeme, before, after, htext, -⟩ := htiles.spelled t ht
    refine .inr ⟨hlexeme, fun c hc => ?_⟩
    rw [htext]
    exact List.mem_append_right _ (List.mem_append_left _ hc)
  · obtain rfl := List.mem_singleton.1 ht
    exact .inl rfl

/-- **A token is shown without a line break unless it is a quoted text with one.** -/
theorem hasLineBreak_shown_iff (htokens : tokenize text = .ok tokens) (ht : t ∈ tokens) :
    hasLineBreak t.kind.shown = true ↔ ∃ s, t.kind = .quoted s ∧ hasLineBreak s = true := by
  rcases lexeme_of_mem_tokens htokens ht with hfinish | ⟨hlexeme, -⟩
  · rw [hfinish]
    simp only [reduceCtorEq, false_and, exists_false, iff_false, Bool.not_eq_true]
    decide
  · exact hlexeme.hasLineBreak_shown

/-- What is quoted in a text of one line is one line. -/
theorem hasLineBreak_of_quoted (htokens : tokenize text = .ok tokens) (ht : t ∈ tokens)
    (hkind : t.kind = .quoted name) (htext : hasLineBreak text = false) :
    hasLineBreak name = false := by
  rcases lexeme_of_mem_tokens htokens ht with hfinish | ⟨hlexeme, hsubset⟩
  · cases hfinish.symm.trans hkind
  · rw [hkind] at hlexeme
    exact hasLineBreak_of_subset (List.Subset.trans hlexeme.subset_of_quoted hsubset) htext

/-- A name of an expression is a word of its tokens or a quoted text. -/
theorem Grammar.Derives.mem_of_mem_namesIn {level : Grammar.Level} {ks : List TokenKind}
    (h : Grammar.Derives level ks e) (hname : name ∈ e.namesIn) :
    .word name ∈ ks ∨ .quoted name ∈ ks := by
  induction h with
  | ofConjunction _ ih | ofUnary _ ih | ofPrimary _ ih => exact ih hname
  | either _ _ ihl ihr | both _ _ ihl ihr =>
    rcases List.mem_append.1 hname with hname | hname
    · exact (ihl hname).imp (List.mem_append_left _) (List.mem_append_left _)
    · exact (ihr hname).imp (fun h => List.mem_append_right _ (List.mem_cons_of_mem _ h))
        fun h => List.mem_append_right _ (List.mem_cons_of_mem _ h)
  | complement _ ih =>
    exact (ih hname).imp (List.mem_cons_of_mem _) (List.mem_cons_of_mem _)
  | group _ ih =>
    exact (ih hname).imp (fun h => List.mem_cons_of_mem _ (List.mem_append_left _ h))
      fun h => List.mem_cons_of_mem _ (List.mem_append_left _ h)
  | name =>
    rw [Expression.namesIn] at hname
    split_ifs at hname
    · cases hname
    · exact .inl (by rw [List.mem_singleton.1 hname]; exact List.mem_singleton_self _)
  | quotedName =>
    rw [Expression.namesIn] at hname
    split_ifs at hname
    · cases hname
    · exact .inr (by rw [List.mem_singleton.1 hname]; exact List.mem_singleton_self _)
  | filter | quotedFilter => cases hname

/-- **The names of an expression break no line if its text does not.** -/
theorem hasLineBreak_of_mem_namesIn (hparse : parseExpression text = .ok e)
    (hname : name ∈ e.namesIn) (htext : hasLineBreak text = false) :
    hasLineBreak name = false := by
  rw [parseExpression] at hparse
  split at hparse
  · cases hparse
  rename_i tokens htokens
  split at hparse
  · cases hparse
  rename_i hread
  obtain rfl := Except.ok.inj hparse
  obtain ⟨ts, rfl, htiles⟩ := tiles_of_tokenize htokens
  have hbody : ∀ t ∈ ts, t.kind ≠ .finish := fun t ht => (htiles.spelled t ht).1.ne_finish
  rcases (spells_of_parseTokens hbody rfl hread).mem_of_mem_namesIn hname with hmem | hmem
  · obtain ⟨t, ht, hkind⟩ := List.mem_map.1 hmem
    have hlexeme := (htiles.spelled t ht).1
    rw [hkind] at hlexeme
    exact hlexeme.hasLineBreak_of_word
  · obtain ⟨t, ht, hkind⟩ := List.mem_map.1 hmem
    exact hasLineBreak_of_quoted htokens (List.mem_append_left _ ht) hkind htext

end Tokens

end MusicCollections

/-
# The characters of a token

Which characters make a token, and of which kind, is said by `Lexeme` without reading: a
parenthesis, a quotation between its quotes, or a bare word.  They are read as that token,
whatever follows, as long as no word goes on into what follows a bare one (`Boundary`,
`Lexeme.tokensFrom_append`).
-/

import MusicCollections.Proofs.Expression.Quotations

namespace MusicCollections
namespace Token

variable {c : Char} {cs rest : List Char}

/-! ## Where words end -/

/-- No word goes on into the characters. -/
def Boundary (rest : List Char) : Prop := ∀ c ∈ rest.head?, isWordChar c = false

/-- A character that is of no word ends the word before it. -/
theorem boundary_cons (h : isWordChar c = false) (cs : List Char) : Boundary (c :: cs) := by
  intro d hd
  obtain rfl : c = d := by simpa using hd
  exact h

/-- Where one boundary follows another, there is a boundary. -/
theorem Boundary.append (h : Boundary cs) (h' : Boundary rest) : Boundary (cs ++ rest) := by
  cases cs with
  | nil => exact h'
  | cons c cs => exact h

/-- What begins a boundary is one. -/
theorem Boundary.of_append (h : Boundary (cs ++ rest)) : Boundary cs := by
  cases cs with
  | nil => exact nofun
  | cons c cs => exact h

/-- A character of a word is neither white space nor control character, parenthesis, quote
or reserved. -/
theorem isWordChar_iff : isWordChar c = true ↔
    Text.isBlank c = false ∧ Text.isControl c = false ∧ c ≠ '(' ∧ c ≠ ')' ∧ c ≠ '"' ∧
      c ∉ reserved := by
  simp [isWordChar, and_assoc]

/-! ## Lexemes -/

/-- The characters of a token of the kind. -/
inductive Lexeme : List Char → TokenKind → Prop
  | opening : Lexeme ['('] .opening
  | closing : Lexeme [')'] .closing
  | quoted {body value} : Quotation body value →
      Lexeme ('"' :: (body ++ ['"'])) (.quoted (String.ofList value))
  | word {cs : List Char} : cs ≠ [] → (∀ c ∈ cs, isWordChar c = true) → Lexeme cs (kindOfWord cs)

/-- The characters make up a bare word. -/
def IsBare (cs : List Char) : Prop := ∀ c ∈ cs, isWordChar c = true

/-- No bare text begins with a character that is of no word. -/
theorem not_isBare_cons (h : isWordChar c = false) (cs : List Char) : ¬IsBare (c :: cs) := by
  intro hbare
  rw [hbare c List.mem_cons_self] at h
  cases h

/-- Characters that belong to the token before are passed over. -/
theorem tokensFrom_skip (position : Nat) (cs rest : List Char) :
    tokensFrom cs.length position (cs ++ rest) = tokensFrom 0 (position + cs.length) rest := by
  induction cs generalizing position with
  | nil => rfl
  | cons c cs ih =>
    rw [List.length_cons, List.cons_append, tokensFrom, ih]
    simp [Nat.add_comm, Nat.add_left_comm]

namespace Lexeme

variable {lexeme body value : List Char} {kind : TokenKind}

/-- There is no empty lexeme. -/
theorem ne_nil (h : Lexeme lexeme kind) : lexeme ≠ [] := by
  cases h with
  | opening | closing | quoted => simp
  | word hne => exact hne

/-- The end is written with no characters. -/
theorem ne_finish (h : Lexeme lexeme kind) : kind ≠ .finish := by
  cases h with
  | opening | closing | quoted => simp
  | word =>
    rw [kindOfWord, operator?]
    split_ifs <;> simp

/-- No word can go on into a token that is no bare word, nor from one. -/
theorem isWordChar_ends (h : Lexeme lexeme kind) (hbare : ¬IsBare lexeme) :
    ∀ c ∈ lexeme.getLast?, isWordChar c = false := by
  cases h with
  | opening | closing =>
    rintro c hc
    obtain rfl := Option.some.inj hc
    decide
  | quoted =>
    rintro c hc
    rw [List.getLast?_cons, List.getLast?_concat] at hc
    obtain rfl := Option.some.inj hc
    decide
  | word _ hchars => exact absurd hchars hbare

/-- A quoted text is taken as one token, whatever follows it. -/
theorem tokensFrom_quoted (h : Quotation body value) (position : Nat) (rest : List Char) :
    tokensFrom 0 position ('"' :: (body ++ ['"']) ++ rest) =
      (tokensFrom 0 (position + ('"' :: (body ++ ['"'])).length) rest).map
        (⟨.quoted (String.ofList value), String.ofList ('"' :: (body ++ ['"'])), position⟩
          :: ·) := by
  have hread := h.readQuoted rest
  have hclosed : body ++ '"' :: rest = (body ++ ['"']) ++ rest := by simp
  have hlength : body.length + 1 = (body ++ ['"']).length := by simp
  have hblank : Text.isBlank '"' = false := by decide
  rw [hclosed, hlength] at hread
  rw [List.cons_append, tokensFrom]
  simp only [hblank, Bool.false_eq_true, if_false, Char.reduceEq, if_true, hread, tokensFrom_skip,
    List.take_left, List.length_cons, Nat.add_assoc, Nat.add_comm 1]

/-- A word is taken as one token if what follows ends it. -/
theorem tokensFrom_word (hne : cs ≠ []) (hchars : ∀ c ∈ cs, isWordChar c = true)
    (hrest : Boundary rest) (position : Nat) :
    tokensFrom 0 position (cs ++ rest) =
      (tokensFrom 0 (position + cs.length) rest).map
        (⟨kindOfWord cs, String.ofList cs, position⟩ :: ·) := by
  obtain ⟨c, cs, rfl⟩ := List.exists_cons_of_ne_nil hne
  obtain ⟨hblank, -, hopening, hclosing, hquote, -⟩ := isWordChar_iff.1 (hchars c (by simp))
  have htake : (cs ++ rest).takeWhile isWordChar = cs := by
    rw [List.takeWhile_append_of_pos fun d hd => hchars d (List.mem_cons_of_mem c hd)]
    cases rest with
    | nil => simp
    | cons d rest => simp [hrest d rfl]
  rw [List.cons_append, tokensFrom]
  simp only [hblank, Bool.false_eq_true, if_false, hopening, hclosing, hquote,
    hchars c List.mem_cons_self, if_true, htake, List.length_cons, Nat.add_sub_cancel,
    tokensFrom_skip, Nat.add_assoc, Nat.add_comm 1]

/-- **The characters of a token are read as it**, if no word goes on after them. -/
theorem tokensFrom_append (h : Lexeme lexeme kind) (hrest : IsBare lexeme → Boundary rest)
    (position : Nat) : tokensFrom 0 position (lexeme ++ rest) =
      (tokensFrom 0 (position + lexeme.length) rest).map
        (⟨kind, String.ofList lexeme, position⟩ :: ·) := by
  cases h with
  | opening =>
    have hblank : Text.isBlank '(' = false := by decide
    rw [List.singleton_append, tokensFrom]
    simp only [hblank, Bool.false_eq_true, if_false, if_true]
    rfl
  | closing =>
    have hblank : Text.isBlank ')' = false := by decide
    rw [List.singleton_append, tokensFrom]
    simp only [hblank, Bool.false_eq_true, if_false, Char.reduceEq, if_true]
    rfl
  | quoted hbody => exact tokensFrom_quoted hbody position rest
  | word hne hchars => exact tokensFrom_word hne hchars (hrest hchars) position

end Lexeme
end Token
end MusicCollections

/-
# Names between quotes

Every name, whatever its characters, is spelled by some text: itself between quotes.
-/

import MusicCollections.Expression.Parser
import MusicCollections.Expression.Printer
import MusicCollections.Proofs.Expression.Lexemes

namespace MusicCollections

namespace Token

/-- Characters are quoted by their escapes. -/
theorem quotation_quoted (cs : List Char) : Quotation (cs.flatMap Expression.quoteChar) cs := by
  induction cs with
  | nil => exact .nil
  | cons c cs ih =>
    rw [List.flatMap_cons, Expression.quoteChar]
    split
    · rename_i hescaped
      exact .escaped hescaped.symm ih
    · rename_i hescaped
      rw [not_or] at hescaped
      exact .plain hescaped.2 hescaped.1 ih

/-- **A text between quotes is one token.** -/
theorem lexeme_quoteWord (s : String) : Lexeme (Expression.quoteWord s).toList (.quoted s) := by
  have hlexeme := Lexeme.quoted (quotation_quoted s.toList)
  rw [String.ofList_toList] at hlexeme
  have hchars : (Expression.quoteWord s).toList =
      '"' :: (s.toList.flatMap Expression.quoteChar ++ ['"']) := by
    simp [Expression.quoteWord]
  rwa [hchars]

/-- A token that is a whole text is the only one before its end. -/
theorem tokenize_of_lexeme {text : String} {kind : TokenKind} (h : Lexeme text.toList kind) :
    tokenize text = .ok [⟨kind, text, 0⟩, ⟨.finish, "", text.toList.length⟩] := by
  have htokens := h.tokensFrom_append (fun _ => (nofun : Boundary [])) 0
  rw [List.append_nil, tokensFrom, String.ofList_toList, Nat.zero_add] at htokens
  exact htokens

end Token

/-- A text that is one quoted token refers to what it stands for. -/
theorem parseExpression_of_lexeme {text name : String}
    (h : Token.Lexeme text.toList (.quoted name)) : parseExpression text = .ok (.ref name) := by
  rw [parseExpression, Token.tokenize_of_lexeme h]
  rfl

/-- **A name between quotes is that name.** -/
theorem parseExpression_quoteWord (name : String) :
    parseExpression (Expression.quoteWord name) = .ok (.ref name) :=
  parseExpression_of_lexeme (Token.lexeme_quoteWord name)

end MusicCollections

/-
# Reading back the text of an expression

The text of an expression spells it: its characters have tokens (`Lexed`) that the
grammar derives the expression from, its groups left out (`Spelled`).  Each operand is
written as a part of the level that its place asks for, in parentheses where it would
otherwise be of a looser one (`Spelled.operand`).

A text ends its last token only if no word goes on after it.  Between an operand and what
follows stands white space, a parenthesis or the end, so texts of operands can be put
together (`Lexed.append`).
-/

import MusicCollections.Proofs.Expression.Reading
import MusicCollections.Proofs.Quoting

namespace MusicCollections

open Grammar

/-! ## Tokens of a text and of what follows -/

namespace Token

variable {cs cs' rest : List Char} {ks ks' : List TokenKind} {c : Char}

/-- The characters have tokens of the kinds, whatever follows that no word goes on into. -/
def Lexed (cs : List Char) (ks : List TokenKind) : Prop :=
  ∀ position rest, Boundary rest → ∃ ts : List Token, ts.map Token.kind = ks ∧
    tokensFrom 0 position (cs ++ rest) =
      (tokensFrom 0 (position + cs.length) rest).map (ts ++ ·)

namespace Lexed

/-- Texts that are lexed one after the other are lexed together, if the second one ends a
word before it. -/
theorem append (h : Lexed cs ks) (h' : Lexed cs' ks') (hnext : Boundary cs') :
    Lexed (cs ++ cs') (ks ++ ks') := by
  intro position rest hrest
  obtain ⟨ts, rfl, hts⟩ := h position (cs' ++ rest) (hnext.append hrest)
  obtain ⟨ts', rfl, hts'⟩ := h' (position + cs.length) rest hrest
  refine ⟨ts ++ ts', List.map_append, ?_⟩
  rw [List.append_assoc, hts, hts', List.length_append, Nat.add_assoc]
  cases tokensFrom 0 (position + (cs.length + cs'.length)) rest with
  | error e => rfl
  | ok left => simp [Except.map]

/-- White space at the start makes no token. -/
theorem blank (hc : Text.isBlank c = true) (h : Lexed cs ks) : Lexed (c :: cs) ks := by
  intro position rest hrest
  obtain ⟨ts, hkinds, hts⟩ := h (position + 1) rest hrest
  refine ⟨ts, hkinds, ?_⟩
  rw [List.cons_append, tokensFrom, if_pos hc, hts, List.length_cons, Nat.add_right_comm,
    Nat.add_assoc]

/-- The characters of a token have it. -/
theorem lexeme {kind : TokenKind} (h : Lexeme cs kind) : Lexed cs [kind] := by
  intro position rest hrest
  exact ⟨[⟨kind, String.ofList cs, position⟩], rfl, h.tokensFrom_append (fun _ => hrest) position⟩

/-- An opening parenthesis is a token of its own. -/
theorem opening (h : Lexed cs ks) : Lexed ('(' :: cs) (.opening :: ks) := by
  intro position rest hrest
  obtain ⟨ts, rfl, hts⟩ := h (position + 1) rest hrest
  refine ⟨⟨.opening, "(", position⟩ :: ts, rfl, ?_⟩
  have hboundary : IsBare ['('] → Boundary (cs ++ rest) := fun hbare =>
    absurd hbare (not_isBare_cons (by decide) [])
  have hopening := Lexeme.opening.tokensFrom_append hboundary position
  rw [List.cons_append, ← List.singleton_append, hopening, List.length_singleton, hts,
    List.length_cons, Nat.add_right_comm, Nat.add_assoc]
  cases tokensFrom 0 (position + (cs.length + 1)) rest <;> rfl

/-- A closing parenthesis is a token of its own. -/
theorem closing : Lexed [')'] [.closing] := lexeme .closing

/-- A bare word is one token. -/
theorem word (hne : cs ≠ []) (hchars : ∀ c ∈ cs, isWordChar c = true) :
    Lexed cs [kindOfWord cs] := lexeme (.word hne hchars)

/-- What is written between quotes is lexed as one quoted text. -/
theorem quoted (s : String) : Lexed (Expression.quoteWord s).toList [.quoted s] :=
  lexeme (lexeme_quoteWord s)

/-- A word with white space on both sides stands between what is before and after it. -/
theorem between {op : List Char} (h : Lexed cs ks) (h' : Lexed cs' ks') (hne : op ≠ [])
    (hchars : ∀ c ∈ op, isWordChar c = true) :
    Lexed (cs ++ ' ' :: (op ++ ' ' :: cs')) (ks ++ kindOfWord op :: ks') := by
  have hspace : isWordChar ' ' = false := by decide
  have hright : Lexed (op ++ ' ' :: cs') ([kindOfWord op] ++ ks') :=
    (word hne hchars).append (blank (by decide) h') (boundary_cons hspace _)
  exact h.append (blank (by decide) hright) (boundary_cons hspace _)

end Lexed

/-! ## Words -/

/-- No operator has a colon. -/
theorem operator?_eq_none {word : String} (h : ':' ∈ word.toList) : operator? word = none := by
  have hlower := Text.colon_mem_asciiLower h
  have hne : ∀ s : String, ':' ∉ s.toList → Text.asciiLower word ≠ s :=
    fun s hs heq => hs (heq ▸ hlower)
  simp [operator?, hne "and" (by decide), hne "or" (by decide), hne "not" (by decide)]

/-- A word that is no operator is lexed as a word. -/
theorem kindOfWord_eq_word {word : String} (h : operator? word = none) :
    kindOfWord word.toList = .word word := by
  simp [kindOfWord, h]

end Token

namespace Expression

open Token

/-- A text is written without quotes if it is a word and neither empty nor an operator, and
has no colon where that would make a filter of it. -/
theorem isBare_iff {colonAllowed : Bool} {word : String} : isBare colonAllowed word = true ↔
    word ≠ "" ∧ operator? word = none ∧
      ∀ c ∈ word.toList, isWordChar c = true ∧ (colonAllowed = true ∨ c ≠ ':') := by
  simp [isBare, and_assoc]

/-- The name of a tag and its colon are characters of a word. -/
theorem isWordChar_of_mem_name {tag : Tag} : ∀ c ∈ (tag.name ++ ":").toList,
    isWordChar c = true := by
  cases tag <;> exact List.all_eq_true.1 (by decide)

/-! ## Operands in their places -/

/-- The level of the text of an expression. -/
def level : Expression → Level
  | .either _ _ => .disjunction
  | .both _ _ => .conjunction
  | .complement _ => .unary
  | .ref _ | .filter _ _ | .group _ => .primary

/-- Nothing is looser than a disjunction. -/
theorem looseness_level_le (e : Expression) :
    e.level.looseness ≤ Level.disjunction.looseness := by
  cases e <;> simp [level, Level.looseness]

/-- What is no disjunction may be an operand of AND on the left. -/
theorem looseness_level_of_isEither_eq_false {e : Expression} (h : e.isEither = false) :
    e.level.looseness ≤ Level.conjunction.looseness := by
  cases e <;> simp_all [isEither, level, Level.looseness]

/-- What is neither a disjunction nor a conjunction may be an operand of NOT, and of AND on
the right. -/
theorem looseness_level_of_isBoth_or_isEither_eq_false {e : Expression}
    (h : (e.isBoth || e.isEither) = false) : e.level.looseness ≤ Level.unary.looseness := by
  cases e <;> simp_all [isBoth, isEither, level, Level.looseness]

/-- The characters spell the expression, as a part of the level. -/
def Spelled (level : Level) (cs : List Char) (e : Expression) : Prop :=
  ∃ ks, Lexed cs ks ∧ Derives level ks e

namespace Spelled

variable {e e' : Expression} {cs cs' : List Char} {place : Level} {l r : Expression}

/-- What is spelled at one level is spelled at each looser one. -/
theorem loosen {level : Level} (h : Spelled level cs e')
    (hle : level.looseness ≤ place.looseness) : Spelled place cs e' := by
  obtain ⟨ks, hlexed, hderives⟩ := h
  exact ⟨ks, hlexed, hderives.loosen hle⟩

/-- Parentheses make an operand of any expression. -/
theorem group (h : Spelled .disjunction cs e') : Spelled .primary ('(' :: (cs ++ [')'])) e' := by
  obtain ⟨ks, hlexed, hderives⟩ := h
  have hclosed : Lexed (cs ++ [')']) (ks ++ [.closing]) :=
    hlexed.append .closing (boundary_cons (by decide) [])
  exact ⟨_, hclosed.opening, .group hderives⟩

/-- NOT before an operand spells its complement. -/
theorem complement (h : Spelled .unary cs e') :
    Spelled .unary ('N' :: 'O' :: 'T' :: ' ' :: cs) (.complement e') := by
  obtain ⟨ks, hlexed, hderives⟩ := h
  have hnot : Lexed ['N', 'O', 'T'] [.not] := .word (by decide) (List.all_eq_true.1 (by decide))
  exact ⟨_, hnot.append (.blank (by decide) hlexed) (boundary_cons (by decide) _),
    .complement hderives⟩

/-- AND between two operands spells their conjunction. -/
theorem both (h : Spelled .conjunction cs l) (h' : Spelled .unary cs' r) :
    Spelled .conjunction (cs ++ [' ', 'A', 'N', 'D', ' '] ++ cs') (.both l r) := by
  obtain ⟨ks, hlexed, hderives⟩ := h
  obtain ⟨ks', hlexed', hderives'⟩ := h'
  have hand : Lexed (cs ++ ' ' :: (['A', 'N', 'D'] ++ ' ' :: cs')) (ks ++ .and :: ks') :=
    hlexed.between hlexed' (by decide) (List.all_eq_true.1 (by decide))
  rw [List.append_assoc]
  exact ⟨_, hand, .both hderives hderives'⟩

/-- OR between two operands spells their disjunction. -/
theorem either (h : Spelled .disjunction cs l) (h' : Spelled .conjunction cs' r) :
    Spelled .disjunction (cs ++ [' ', 'O', 'R', ' '] ++ cs') (.either l r) := by
  obtain ⟨ks, hlexed, hderives⟩ := h
  obtain ⟨ks', hlexed', hderives'⟩ := h'
  have hor : Lexed (cs ++ ' ' :: (['O', 'R'] ++ ' ' :: cs')) (ks ++ .or :: ks') :=
    hlexed.between hlexed' (by decide) (List.all_eq_true.1 (by decide))
  rw [List.append_assoc]
  exact ⟨_, hor, .either hderives hderives'⟩

/-- **An expression is a part of its place, in parentheses if it needs them.** -/
theorem operand {needed : Bool} (h : Spelled e.level e.render.toList e')
    (hplace : needed = false → e.level.looseness ≤ place.looseness) :
    Spelled place (parenthesize needed e.render).toList e' := by
  cases needed with
  | false => exact h.loosen (hplace rfl)
  | true =>
    have hwhole : Spelled .disjunction e.render.toList e' :=
      h.loosen e.looseness_level_le
    have hgroup : Spelled place ('(' :: (e.render.toList ++ [')'])) e' :=
      hwhole.group.loosen (Nat.zero_le _)
    simpa [parenthesize] using hgroup

/-- A name that is written out spells a reference to it. -/
theorem ref (name : String) : Spelled .primary (renderWord false name).toList (.ref name) := by
  rw [renderWord]
  split
  · rename_i hbare
    obtain ⟨hne, hoperator, hchars⟩ := isBare_iff.1 hbare
    have hcolon : ':' ∉ name.toList := fun hmem => by simpa using (hchars ':' hmem).2
    have hword := Lexed.word (by simpa using hne) fun c hc => (hchars c hc).1
    rw [kindOfWord_eq_word hoperator] at hword
    exact ⟨_, hword, .name hcolon⟩
  · exact ⟨_, .quoted name, .quotedName⟩

/-- A tag, a colon and a pattern that is written out spell a filter. -/
theorem filter (tag : Tag) (pattern : String) :
    Spelled .primary (tag.name ++ ":" ++ renderWord true pattern).toList
      (.filter tag pattern) := by
  rw [renderWord]
  split
  · rename_i hbare
    obtain ⟨hne, -, hchars⟩ := isBare_iff.1 hbare
    have hword : Lexed (tag.name ++ ":" ++ pattern).toList
        [kindOfWord (tag.name ++ ":" ++ pattern).toList] := by
      refine .word (by simp) fun c hc => ?_
      rw [String.toList_append, List.mem_append] at hc
      exact hc.elim (isWordChar_of_mem_name c) fun hc => (hchars c hc).1
    rw [kindOfWord_eq_word (operator?_eq_none (by simp))] at hword
    exact ⟨_, hword, .filter (Tag.asciiLower_name tag) hne⟩
  · have hword : Lexed (tag.name ++ ":").toList [kindOfWord (tag.name ++ ":").toList] :=
      .word (by simp) isWordChar_of_mem_name
    rw [kindOfWord_eq_word (operator?_eq_none (by simp))] at hword
    -- The quote ends the word before it.
    have hquote : Boundary (quoteWord pattern).toList := by
      rw [quoteWord, String.append_assoc, String.toList_append]
      exact boundary_cons (by decide) _
    rw [String.toList_append]
    exact ⟨_, hword.append (.quoted pattern) hquote, .quotedFilter (Tag.asciiLower_name tag)⟩

end Spelled

/-- **The text of an expression spells it, its groups left out.** -/
theorem spelled_render (e : Expression) : Spelled e.level e.render.toList e.collapse := by
  induction e with
  | ref name => exact .ref name
  | filter tag pattern => exact .filter tag pattern
  | complement e ih =>
    have hoperand : Spelled .unary (parenthesize (e.isBoth || e.isEither) e.render).toList
        e.collapse := ih.operand looseness_level_of_isBoth_or_isEither_eq_false
    simpa [render, level, collapse] using hoperand.complement
  | both l r ihl ihr =>
    have hl : Spelled .conjunction (parenthesize l.isEither l.render).toList l.collapse :=
      ihl.operand looseness_level_of_isEither_eq_false
    have hr : Spelled .unary (parenthesize (r.isBoth || r.isEither) r.render).toList
        r.collapse := ihr.operand looseness_level_of_isBoth_or_isEither_eq_false
    simpa [render, level, collapse] using hl.both hr
  | either l r ihl ihr =>
    have hl : Spelled .disjunction l.render.toList l.collapse :=
      ihl.loosen l.looseness_level_le
    have hr : Spelled .conjunction (parenthesize r.isEither r.render).toList r.collapse :=
      ihr.operand looseness_level_of_isEither_eq_false
    simpa [render, level, collapse] using hl.either hr
  | group e ih =>
    have hwhole : Spelled .disjunction e.render.toList e.collapse :=
      ih.loosen e.looseness_level_le
    simpa [render, level, collapse] using hwhole.group

end Expression

/-- **The text of an expression is read back as the expression, its groups left out.** -/
theorem parseExpression_render (e : Expression) : parseExpression e.render = .ok e.collapse := by
  obtain ⟨ks, hlexed, hderives⟩ := e.spelled_render
  obtain ⟨ts, rfl, htokens⟩ := hlexed 0 [] nofun
  have hspells : Spells (ts.map Token.kind) e.collapse :=
    hderives.loosen e.looseness_level_le
  rw [List.append_nil, Token.tokensFrom] at htokens
  have hread : parseTokens (ts ++ [⟨.finish, "", 0 + e.render.toList.length⟩]) =
      .ok e.collapse := parseTokens_of_spells rfl hspells
  rw [parseExpression, tokenize, htokens]
  simp only [Except.map, hread]

end MusicCollections

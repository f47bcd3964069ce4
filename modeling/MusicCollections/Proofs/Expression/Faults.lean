/-
# Where reading an expression fails

Tokens that end in an end token can be read as a part of an expression up to a token that
does not go on with it, or reading fails at a token (`Progress`, `progress`).  Where it
fails it does so whatever comes after that token (`Rejects`), and the tokens before it
could have been completed (`Viable`).

What is spelled is read, so nothing that is accepted begins with the tokens up to the one
at which reading fails: it is the first that cannot be right
(`parseExpression_fails_at_first_impossible`).
-/

import MusicCollections.Proofs.Expression.Reading
import MusicCollections.Proofs.Expression.Tiling

namespace MusicCollections
namespace Grammar

/-- Tokens can follow with which these are a part of the level. -/
def Viable (level : Level) (ks : List TokenKind) : Prop := ∃ more e, Derives level (ks ++ more) e

/-- The tokens of an expression and the end after them. -/
def Accepted (ks : List TokenKind) : Prop := ∃ body e, ks = body ++ [.finish] ∧ Spells body e

/-- The level is a row of parts of another one, with the operator between them. -/
inductive RowOf : Level → Level → TokenKind → Prop
  | disjunction : RowOf .disjunction .conjunction .or
  | conjunction : RowOf .conjunction .unary .and

/-- A part of the level that ends before the token is not at its end. -/
def Continues : Level → TokenKind → Prop
  | .disjunction, k => k = .or ∨ k = .and
  | .conjunction, k => k = .and
  | .unary, _ | .primary, _ => False

variable {level inner : Level} {operator k : TokenKind} {ks ks' : List TokenKind}
  {e e' : Expression}

namespace RowOf

/-- A row is one level looser than its parts. -/
theorem looser (h : RowOf level inner operator) : level.looseness = inner.looseness + 1 := by
  cases h <;> rfl

/-- No operator is the end. -/
theorem ne_finish (h : RowOf level inner operator) : operator ≠ .finish := by
  cases h <;> simp

/-- A row goes on by its operator and another part. -/
theorem derives (h : RowOf level inner operator) (hl : Derives level ks e)
    (hr : Derives inner ks' e') : ∃ both, Derives level (ks ++ operator :: ks') both := by
  cases h with
  | disjunction => exact ⟨_, .either hl hr⟩
  | conjunction => exact ⟨_, .both hl hr⟩

/-- A row goes on at its operator, and where its parts do. -/
theorem continues_iff (h : RowOf level inner operator) :
    Continues level k ↔ k = operator ∨ Continues inner k := by
  cases h <;> simp [Continues]

end RowOf

namespace Viable

/-- What can begin a part of one level can begin a part of each looser one. -/
theorem loosen {place : Level} (h : Viable level ks) (hle : level.looseness ≤ place.looseness) :
    Viable place ks := by
  obtain ⟨more, e, hderives⟩ := h
  exact ⟨more, e, hderives.loosen hle⟩

/-- Any operand can come first. -/
theorem nil : Viable .primary [] := ⟨[.quoted ""], _, .quotedName⟩

/-- After a row and its operator, whatever can begin a part can follow. -/
theorem operand (hrow : RowOf level inner operator) (hl : Derives level ks e)
    (hr : Viable inner ks') : Viable level (ks ++ operator :: ks') := by
  obtain ⟨more, e', hr⟩ := hr
  obtain ⟨both, hboth⟩ := hrow.derives hl hr
  exact ⟨more, both, by rwa [List.append_assoc, List.cons_append]⟩

/-- After NOT, whatever can begin an operand can follow. -/
theorem complement (h : Viable .unary ks) : Viable .unary (.not :: ks) := by
  obtain ⟨more, e, hderives⟩ := h
  exact ⟨more, _, .complement hderives⟩

/-- A group can be closed when what it holds is complete. -/
theorem group (h : Viable .disjunction ks) : Viable .primary (.opening :: ks) := by
  obtain ⟨more, e, hderives⟩ := h
  refine ⟨more ++ [.closing], e, ?_⟩
  rw [List.cons_append, ← List.append_assoc]
  exact .group hderives

/-- What can begin an expression can begin tokens that are accepted. -/
theorem accepted (h : Viable .disjunction ks) : ∃ more, Accepted (ks ++ more) := by
  obtain ⟨more, e, hderives⟩ := h
  exact ⟨more ++ [.finish], _, e, (List.append_assoc _ _ _).symm, hderives⟩

end Viable

/-- What is a part of a level can begin one. -/
theorem Derives.viable (h : Derives level ks e) : Viable level ks := ⟨[], e, by simpa using h⟩

end Grammar

open Grammar

namespace Parser

variable {level inner : Level} {operator : TokenKind} {ts ts' tokens : List Token}
  {t t' : Token} {e : Expression} {tag : Tag} {word tagName pattern : String}

/-- Reading a part of the level. -/
def parseLevel : Level → Nat → Cursor → Step
  | .disjunction => parseOr
  | .conjunction => parseAnd
  | .unary => parseUnary
  | .primary => parsePrimary

/-- Reading fails at the token after these, whatever comes after it, and with the same
error. -/
def Rejects (level : Level) (ts : List Token) (t : Token) : Prop :=
  ∃ err : ParseError, err.position = t.position ∧
    ∀ fuel tail last, 4 * ts.length + level.looseness < fuel →
      parseLevel level fuel ⟨ts ++ t :: tail, last⟩ = .error (.fault err)

/-- The last token is an end token. -/
def Ended (tokens : List Token) : Prop := tokens.getLast?.map Token.kind = some .finish

/-- How far the tokens are read as a part of the level. -/
inductive Progress (level : Level) (tokens : List Token) : Prop
  | reads (ts : List Token) {t tail e} : tokens = ts ++ t :: tail →
      Derives level (ts.map Token.kind) e → ¬Continues level t.kind → Progress level tokens
  | fails (ts : List Token) {t tail} : tokens = ts ++ t :: tail → Rejects level ts t →
      Viable level (ts.map Token.kind) → Progress level tokens

/-! ## Tokens up to an end -/

namespace Ended

/-- Tokens with an end are not empty. -/
theorem exists_cons (h : Ended tokens) : ∃ t tail, tokens = t :: tail := by
  cases tokens with
  | nil => cases h
  | cons t tail => exact ⟨t, tail, rfl⟩

/-- After any token but an end there is another one. -/
theorem tail (h : Ended (t :: ts)) (ht : t.kind ≠ .finish) : Ended ts := by
  cases ts with
  | nil => exact absurd (Option.some.inj h) ht
  | cons => exact h

/-- What is left of tokens with an end has that end. -/
theorem of_append (h : Ended (ts ++ t :: ts')) : Ended (t :: ts') := by
  rwa [Ended, List.getLast?_append_of_ne_nil _ (List.cons_ne_nil t ts')] at h

end Ended

/-! ## What reading fails at -/

namespace Rejects

/-- Where the part that is read next is wrong, so is what holds it. -/
theorem of_part (h : Rejects inner ts' t)
    (hfuel : 4 * ts'.length + inner.looseness < 4 * ts.length + level.looseness)
    (hpart : ∀ fuel tail last err,
      parseLevel inner fuel ⟨ts' ++ t :: tail, last⟩ = .error err →
        parseLevel level (fuel + 1) ⟨ts ++ t :: tail, last⟩ = .error err) :
    Rejects level ts t := by
  obtain ⟨err, hposition, hfails⟩ := h
  refine ⟨err, hposition, fun fuel tail last hle => ?_⟩
  obtain ⟨fuel, rfl⟩ : ∃ n, fuel = n + 1 := ⟨fuel - 1, by omega⟩
  exact hpart fuel tail last _ (hfails fuel tail last (by omega))

/-- Where the first part of a row is wrong, so is the row. -/
theorem first (hrow : RowOf level inner operator) (h : Rejects inner ts t) :
    Rejects level ts t := by
  have hlooser := hrow.looser
  refine h.of_part (by omega) fun fuel tail last err herror => ?_
  cases hrow <;> simp only [parseLevel] at herror ⊢
  · rw [parseOr, herror]
  · rw [parseAnd, herror]

/-- Where a later part of a row is wrong, so is the row. -/
theorem operand (hrow : RowOf level inner operator) (hl : Derives level (ts.map Token.kind) e)
    (ht : t.kind = operator) (hr : Rejects inner ts' t') : Rejects level (ts ++ t :: ts') t' := by
  obtain ⟨err, hposition, hfails⟩ := hr
  refine ⟨err, hposition, fun fuel tail last hfuel => ?_⟩
  have hread := read_of_derives hl rfl
  rw [hrow.looser, List.length_append, List.length_cons] at hfuel
  rw [List.append_assoc, List.cons_append]
  cases hrow with
  | disjunction =>
    obtain ⟨left, fuel', -, hle, hread⟩ := hread fuel (t :: (ts' ++ t' :: tail)) last
      (by omega) (by simp [ht])
    obtain ⟨n, rfl⟩ : ∃ n, fuel' = n + 1 := ⟨fuel' - 1, by omega⟩
    have herror := hfails n tail last (by omega)
    simp only [parseLevel] at herror ⊢
    rw [hread, parseOrRest, Cursor.current_cons, if_pos ht, Cursor.advance_cons, herror]
  | conjunction =>
    obtain ⟨left, fuel', -, hle, hread⟩ := hread fuel (t :: (ts' ++ t' :: tail)) last
      (by omega)
    obtain ⟨n, rfl⟩ : ∃ n, fuel' = n + 1 := ⟨fuel' - 1, by omega⟩
    have herror := hfails n tail last (by omega)
    simp only [parseLevel] at herror ⊢
    rw [hread, parseAndRest, Cursor.current_cons, if_pos ht, Cursor.advance_cons, herror]

/-- Where an operand is wrong, so is NOT before it. -/
theorem complement (ht : t.kind = .not) (h : Rejects .unary ts t') :
    Rejects .unary (t :: ts) t' := by
  refine h.of_part (by rw [List.length_cons]; omega) fun fuel tail last err herror => ?_
  simp only [parseLevel] at herror ⊢
  rw [List.cons_append, parseUnary, Cursor.current_cons, if_pos ht, Cursor.advance_cons, herror]

/-- Where an operand is wrong that does not begin with NOT, it is wrong also where NOT may
come first. -/
theorem ofPrimary (hnot : ∀ k ∈ (ts ++ [t]).head?, k.kind ≠ .not) (h : Rejects .primary ts t) :
    Rejects .unary ts t := by
  refine h.of_part (Nat.lt_succ_self _) fun fuel tail last err herror => ?_
  have hfirst : (Cursor.mk (ts ++ t :: tail) last).current.kind ≠ .not := by
    cases ts with
    | nil => exact hnot t rfl
    | cons k ts => exact hnot k rfl
  simp only [parseLevel] at herror ⊢
  rw [parseUnary, if_neg hfirst, herror]

/-- Where what a group holds is wrong, so is the group. -/
theorem group (ht : t.kind = .opening) (h : Rejects .disjunction ts t') :
    Rejects .primary (t :: ts) t' := by
  refine h.of_part (Nat.lt_succ_self _) fun fuel tail last err herror => ?_
  simp only [parseLevel] at herror ⊢
  rw [List.cons_append, parsePrimary]
  simp only [Cursor.current_cons, ht, Cursor.advance_cons, herror]

/-- What a group holds is over, and the group is not closed. -/
theorem unclosed (ht : t.kind = .opening) (h : Derives .disjunction (ts.map Token.kind) e)
    (hnext : ¬Continues .disjunction t'.kind) (hclosing : t'.kind ≠ .closing) :
    Rejects .primary (t :: ts) t' := by
  rw [Continues, not_or] at hnext
  refine ⟨⟨t'.position, "`)`", t'.kind.shown⟩, rfl, fun fuel tail last hfuel => ?_⟩
  rw [List.length_cons, Level.looseness] at hfuel
  obtain ⟨fuel, rfl⟩ : ∃ n, fuel = n + 1 := ⟨fuel - 1, by omega⟩
  obtain ⟨inner, fuel', -, hle, hread⟩ := read_of_derives h rfl fuel (t' :: tail) last
    (by omega) hnext.2
  obtain ⟨n, rfl⟩ : ∃ n, fuel' = n + 1 := ⟨fuel' - 1, by omega⟩
  rw [parseLevel, List.cons_append, parsePrimary]
  simp only [Cursor.current_cons, ht, Cursor.advance_cons]
  rw [hread, parseOrRest_done n (by simpa using hnext.1)]
  simp only [closeGroup, Cursor.current_cons, hclosing, if_false, unexpected]

/-- A token that begins no primary. -/
theorem noOperand (hopening : t.kind ≠ .opening) (hquoted : ∀ name, t.kind ≠ .quoted name)
    (hword : ∀ word, t.kind ≠ .word word) : Rejects .primary [] t := by
  refine ⟨⟨t.position, expectedOperand, t.kind.shown⟩, rfl, fun fuel tail last hfuel => ?_⟩
  obtain ⟨fuel, rfl⟩ : ∃ n, fuel = n + 1 := ⟨fuel - 1, by omega⟩
  rw [parseLevel, List.nil_append, parsePrimary]
  split
  · exact absurd ‹_› hopening
  · exact absurd ‹_› (hquoted _)
  · exact absurd ‹_› (hword _)
  · rfl

/-- A word with a colon after what is no tag. -/
theorem unknownTag (ht : t.kind = .word word)
    (hsplit : Text.splitAtFirst ':' word = some (tagName, pattern))
    (htag : Tag.ofName? tagName = none) : Rejects .primary [] t := by
  refine ⟨⟨t.position, expectedTag, "`" ++ tagName ++ "`"⟩, rfl, fun fuel tail last hfuel => ?_⟩
  obtain ⟨fuel, rfl⟩ : ∃ n, fuel = n + 1 := ⟨fuel - 1, by omega⟩
  rw [parseLevel, List.nil_append, parsePrimary]
  simp only [Cursor.current_cons, ht, wordOperand, hsplit, htag]

/-- A tag whose pattern should come next, and does not. -/
theorem noPattern (ht : t.kind = .word word)
    (hsplit : Text.splitAtFirst ':' word = some (tagName, ""))
    (htag : Tag.ofName? tagName = some tag) (hquoted : ∀ pattern, t'.kind ≠ .quoted pattern) :
    Rejects .primary [t] t' := by
  refine ⟨⟨t'.position, "a pattern after the tag", t'.kind.shown⟩, rfl,
    fun fuel tail last hfuel => ?_⟩
  obtain ⟨fuel, rfl⟩ : ∃ n, fuel = n + 1 := ⟨fuel - 1, by omega⟩
  rw [parseLevel, List.singleton_append, parsePrimary]
  simp only [Cursor.current_cons, ht, Cursor.advance_cons, wordOperand, hsplit, htag]
  rw [if_pos (String.isEmpty_iff.2 rfl), quotedPattern]
  split
  · exact absurd ‹_› (hquoted _)
  · rfl

end Rejects

/-! ## How far tokens are read -/

namespace Progress

variable {rest : List Token}

/-- Nothing goes on with a primary, so it is read whatever comes next. -/
theorem ofPrimary (ts : List Token) (h : Derives .primary (ts.map Token.kind) e)
    (hrest : Ended rest) : Progress .primary (ts ++ rest) := by
  obtain ⟨t, tail, rfl⟩ := hrest.exists_cons
  exact .reads ts rfl h id

/-- A word is a name or a filter, or it is wrong, or what comes in place of a pattern is. -/
theorem ofWord (ht : t.kind = .word word) (hrest : Ended rest) : Progress .primary (t :: rest) := by
  cases hsplit : Text.splitAtFirst ':' word with
  | none =>
    have hname := Text.splitAtFirst_eq_none_iff.1 hsplit
    exact ofPrimary [t] (by simpa [ht] using Derives.name hname) hrest
  | some found =>
    obtain ⟨tagName, pattern⟩ := found
    obtain ⟨hchars, -⟩ := Text.splitAtFirst_eq_some_iff.1 hsplit
    have hword : word = tagName ++ ":" ++ pattern := by
      rw [← String.toList_inj, hchars]
      simp
    cases htag : Tag.ofName? tagName with
    | none => exact .fails [] rfl (.unknownTag ht hsplit htag) .nil
    | some tag =>
      have hname := Tag.ofName?_eq_some_iff.1 htag
      -- A tag with nothing after the colon takes its pattern from the next token.
      by_cases hempty : pattern = ""
      · subst hempty
        rw [String.append_empty] at hword
        obtain ⟨t', tail, rfl⟩ := hrest.exists_cons
        by_cases hquoted : ∃ pattern, t'.kind = .quoted pattern
        · obtain ⟨pattern, hquoted⟩ := hquoted
          have hderives : Derives .primary ([t, t'].map Token.kind) (.filter tag pattern) := by
            simpa [ht, hquoted, hword] using Derives.quotedFilter hname
          exact ofPrimary [t, t'] hderives (hrest.tail (by simp [hquoted]))
        · refine .fails [t] rfl (.noPattern ht hsplit htag (not_exists.1 hquoted)) ?_
          refine ⟨[.quoted ""], .filter tag "", ?_⟩
          simpa [ht, hword] using Derives.quotedFilter hname
      · have hderives : Derives .primary ([t].map Token.kind) (.filter tag pattern) := by
          simpa [ht, hword] using Derives.filter hname hempty
        exact ofPrimary [t] hderives hrest

/-- A group is as far read as what it holds, and then it is closed, or what comes next is
wrong. -/
theorem group (ht : t.kind = .opening) (hrest : Ended rest)
    (h : Progress .disjunction rest) : Progress .primary (t :: rest) := by
  cases h with
  | @reads ts t' tail e hsplit hderives hnext =>
    subst hsplit
    by_cases hclosing : t'.kind = .closing
    · have htail := hrest.of_append.tail (by simp [hclosing])
      have hgroup : Derives .primary ((t :: (ts ++ [t'])).map Token.kind) e := by
        simpa [ht, hclosing] using Derives.group hderives
      simpa using ofPrimary (t :: (ts ++ [t'])) hgroup htail
    · refine .fails (t :: ts) rfl (.unclosed ht hderives hnext hclosing) ?_
      rw [List.map_cons, ht]
      exact hderives.viable.group
  | @fails ts t' tail hsplit hrejects hviable =>
    subst hsplit
    refine .fails (t :: ts) rfl (hrejects.group ht) ?_
    rw [List.map_cons, ht]
    exact hviable.group

/-- How far an operand is read. -/
theorem primary (htokens : Ended tokens)
    (ih : ∀ rest, Ended rest → rest.length < tokens.length → Progress .disjunction rest) :
    Progress .primary tokens := by
  obtain ⟨t, rest, rfl⟩ := htokens.exists_cons
  cases hkind : t.kind with
  | word => exact ofWord hkind (htokens.tail (by simp [hkind]))
  | quoted name =>
    have hderives : Derives .primary ([t].map Token.kind) (.ref name) := by
      simpa [hkind] using Derives.quotedName
    exact ofPrimary [t] hderives (htokens.tail (by simp [hkind]))
  | opening =>
    have hrest := htokens.tail (by simp [hkind])
    exact group hkind hrest (ih rest hrest (Nat.lt_succ_self _))
  | and | or | not | closing | finish =>
    refine .fails [] rfl (.noOperand ?_ ?_ ?_) .nil <;> simp [hkind]

/-- How far an operand is read that may have NOT before it. -/
theorem unary (htokens : Ended tokens)
    (ih : ∀ level rest, Ended rest → rest.length < tokens.length → Progress level rest) :
    Progress .unary tokens := by
  obtain ⟨t, rest, rfl⟩ := htokens.exists_cons
  by_cases hnot : t.kind = .not
  · have hrest := htokens.tail (by simp [hnot])
    cases ih .unary rest hrest (Nat.lt_succ_self _) with
    | @reads ts t' tail e hsplit hderives hnext =>
      have hcomplement : Derives .unary ((t :: ts).map Token.kind) (.complement e) := by
        simpa [hnot] using Derives.complement hderives
      exact .reads (t :: ts) (by rw [hsplit, List.cons_append]) hcomplement hnext
    | @fails ts t' tail hsplit hrejects hviable =>
      refine .fails (t :: ts) (by rw [hsplit, List.cons_append]) (hrejects.complement hnot) ?_
      rw [List.map_cons, hnot]
      exact hviable.complement
  · cases primary htokens (ih .disjunction) with
    | reads ts hsplit hderives hnext => exact .reads ts hsplit (.ofPrimary hderives) hnext
    | @fails ts t' tail hsplit hrejects hviable =>
      refine .fails ts hsplit (hrejects.ofPrimary fun k hk => ?_) (hviable.loosen (by decide))
      -- The rejected tokens begin with the first of all, which is no NOT.
      have hfirst : (ts ++ t' :: tail).head? = (ts ++ [t']).head? := by
        cases ts <;> rfl
      obtain rfl : t = k := by simpa [← hfirst, ← hsplit] using hk
      exact hnot

/-- After some parts of a row, the operator is followed by another part. -/
theorem operands (hrow : RowOf level inner operator)
    (hl : Derives level (ts.map Token.kind) e) (hnext : ¬Continues inner t.kind)
    (hrest : Ended (t :: rest))
    (ih : ∀ rest', Ended rest' → rest'.length ≤ rest.length → Progress inner rest') :
    Progress level (ts ++ t :: rest) := by
  induction hn : rest.length using Nat.strong_induction_on generalizing ts t rest e with
  | _ n ihn =>
  subst hn
  by_cases ht : t.kind = operator
  · have hrest' := hrest.tail (ht ▸ hrow.ne_finish)
    cases ih rest hrest' le_rfl with
    | @reads ts' t' tail e' hsplit hderives hnext' =>
      subst hsplit
      obtain ⟨both, hboth⟩ := hrow.derives hl hderives
      -- The row goes on after one more part, with fewer tokens left.
      have hlength : tail.length < (ts' ++ t' :: tail).length := by
        rw [List.length_append, List.length_cons]
        omega
      have hmore : Derives level ((ts ++ t :: ts').map Token.kind) both := by
        simpa [ht] using hboth
      have hprogress := ihn tail.length hlength hmore hnext' hrest'.of_append
        (fun rest' hended hle => ih rest' hended (hle.trans hlength.le)) rfl
      simpa using hprogress
    | @fails ts' t' tail hsplit hrejects hviable =>
      subst hsplit
      have hsplit : ts ++ t :: (ts' ++ t' :: tail) = (ts ++ t :: ts') ++ t' :: tail := by simp
      refine .fails _ hsplit (.operand hrow hl ht hrejects) ?_
      rw [List.map_append, List.map_cons, ht]
      exact .operand hrow hl hviable
  · refine .reads ts rfl hl fun hcontinues => ?_
    rcases hrow.continues_iff.1 hcontinues with h | h
    · exact ht h
    · exact hnext h

/-- A row is as far read as its first part, and then its operators are followed. -/
theorem row (hrow : RowOf level inner operator) (htokens : Ended tokens)
    (ih : ∀ rest, Ended rest → rest.length ≤ tokens.length → Progress inner rest) :
    Progress level tokens := by
  have hloosen : inner.looseness ≤ level.looseness := by
    rw [hrow.looser]
    exact Nat.le_succ _
  cases ih tokens htokens le_rfl with
  | @reads ts t tail e hsplit hderives hnext =>
    subst hsplit
    refine operands hrow (hderives.loosen hloosen) hnext htokens.of_append ?_
    intro rest hrest hle
    refine ih rest hrest (hle.trans ?_)
    rw [List.length_append, List.length_cons]
    omega
  | fails ts hsplit hrejects hviable =>
    exact .fails ts hsplit (hrejects.first hrow) (hviable.loosen hloosen)

end Progress

/-- **Tokens up to an end are read, or reading fails where nothing is wrong before.** -/
theorem progress (level : Level) (htokens : Ended tokens) : Progress level tokens := by
  induction hn : tokens.length using Nat.strong_induction_on generalizing level tokens with
  | _ n ih =>
  subst hn
  have hshorter : ∀ level rest, Ended rest → rest.length < tokens.length → Progress level rest :=
    fun level rest hrest hlt => ih rest.length hlt level hrest rfl
  have hunary : ∀ rest, Ended rest → rest.length ≤ tokens.length → Progress .unary rest :=
    fun rest hrest hle => Progress.unary hrest fun level rest' hrest' hlt =>
      hshorter level rest' hrest' (hlt.trans_le hle)
  have hconjunction : ∀ rest, Ended rest → rest.length ≤ tokens.length →
      Progress .conjunction rest :=
    fun rest hrest hle => Progress.row .conjunction hrest fun rest' hrest' hle' =>
      hunary rest' hrest' (hle'.trans hle)
  cases level with
  | primary => exact Progress.primary htokens (hshorter .disjunction)
  | unary => exact hunary tokens htokens le_rfl
  | conjunction => exact hconjunction tokens htokens le_rfl
  | disjunction => exact Progress.row .disjunction htokens hconjunction

end Parser

/-! ## Whole lists of tokens -/

section Tokens

variable {before after : List Token} {t : Token} {err : ParseError}

/-- Reading tokens fails where it fails as an expression. -/
theorem parseTokens_of_rejects (h : Parser.Rejects .disjunction before t) :
    ∃ err : ParseError, err.position = t.position ∧
      ∀ after, parseTokens (before ++ t :: after) = .error err := by
  obtain ⟨err, hposition, hfails⟩ := h
  refine ⟨err, hposition, fun after => ?_⟩
  have hfuel : 4 * before.length + Level.disjunction.looseness <
      Parser.fuelFor (before ++ t :: after) := by
    simp only [Parser.fuelFor, Level.looseness, List.length_append, List.length_cons]
    omega
  have herror := hfails _ after ((before ++ t :: after).getLastD Parser.endToken) hfuel
  rw [Parser.parseLevel] at herror
  rw [parseTokens, Parser.parseWithin, Parser.Cursor.ofTokens, herror]

/-- Where an expression should have ended, it matters only which token stands there. -/
theorem finish_fails (ht : t.kind ≠ .finish) : ∃ err : ParseError, err.position = t.position ∧
    ∀ e c, Parser.Cursor.current c = t → Parser.finish e c = .error (.fault err) := by
  by_cases hclosing : t.kind = .closing
  · refine ⟨⟨t.position, "matching `(` before `)`", t.kind.shown⟩, rfl, fun e c hc => ?_⟩
    simp [Parser.finish, hc, hclosing, Parser.unexpected]
  · refine ⟨⟨t.position, "AND, OR or end of input", t.kind.shown⟩, rfl, fun e c hc => ?_⟩
    rw [Parser.finish, hc]
    split
    · exact absurd ‹_› ht
    · exact absurd ‹_› hclosing
    · rfl

/-- Reading tokens fails after an expression, if what comes next neither goes on with it nor
ends it. -/
theorem parseTokens_of_derives {e : Expression}
    (h : Derives .disjunction (before.map Token.kind) e)
    (hnext : ¬Continues .disjunction t.kind) (hfinish : t.kind ≠ .finish) :
    ∃ err : ParseError, err.position = t.position ∧
      ∀ after, parseTokens (before ++ t :: after) = .error err := by
  rw [Continues, not_or] at hnext
  obtain ⟨err, hposition, hfails⟩ := finish_fails hfinish
  refine ⟨err, hposition, fun after => ?_⟩
  obtain ⟨e', c, -, hc, hwithin⟩ := parseWithin_of_spells h hnext.1 hnext.2 after
  rw [parseTokens, hwithin, hfails e' c hc]

/-- Nothing that is accepted begins with tokens after which reading fails whatever comes
next. -/
theorem not_accepted_of_fails (h : ∀ after, parseTokens (before ++ t :: after) = .error err) :
    ¬∃ more, Accepted (before.map Token.kind ++ t.kind :: more) := by
  rintro ⟨more, body, e, hkinds, hspells⟩
  have htokens : (before ++ t :: more.map fun k => ⟨k, "", 0⟩).map Token.kind =
      body ++ [.finish] := by
    simpa [Function.comp_def] using hkinds
  obtain ⟨ts, end', hsplit, rfl, hend⟩ := List.map_eq_append_iff.1 htokens
  obtain ⟨last, rfl, hlast⟩ := List.map_eq_singleton_iff.1 hend
  have hread := parseTokens_of_spells hlast hspells
  rw [← hsplit, h] at hread
  cases hread

/-- **Reading tokens fails at the first one that cannot be right**: those before it begin
something that is accepted, and together with it they do not. -/
theorem parseTokens_fails (hended : Parser.Ended tokens) (h : parseTokens tokens = .error err) :
    ∃ before t after, tokens = before ++ t :: after ∧ t.position = err.position ∧
      (∃ more, Accepted (before.map Token.kind ++ more)) ∧
      ¬∃ more, Accepted (before.map Token.kind ++ t.kind :: more) := by
  -- It is enough to know a token after which reading fails whatever comes next.
  suffices hfails : ∃ before t after, tokens = before ++ t :: after ∧
      Viable .disjunction (before.map Token.kind) ∧
      ∃ err : ParseError, err.position = t.position ∧
        ∀ after, parseTokens (before ++ t :: after) = .error err by
    obtain ⟨before, t, after, rfl, hviable, err', hposition, hfails⟩ := hfails
    obtain rfl := Except.error.inj ((hfails after).symm.trans h)
    exact ⟨before, t, after, rfl, hposition.symm, hviable.accepted, not_accepted_of_fails hfails⟩
  cases Parser.progress .disjunction hended with
  | @fails ts t tail hsplit hrejects hviable =>
    exact ⟨ts, t, tail, hsplit, hviable, parseTokens_of_rejects hrejects⟩
  | @reads ts t tail e hsplit hderives hnext =>
    refine ⟨ts, t, tail, hsplit, hderives.viable, parseTokens_of_derives hderives hnext ?_⟩
    -- If this token were the end, everything would have been read.
    intro hfinish
    subst hsplit
    rw [Continues, not_or] at hnext
    obtain ⟨e', c, -, hc, hwithin⟩ := parseWithin_of_spells hderives hnext.1 hnext.2 tail
    rw [parseTokens, hwithin, finish_eq_ok_iff.2 ⟨by rw [hc, hfinish], rfl⟩] at h
    cases h

end Tokens

/-- **A text that has tokens and is no expression fails at the first token that cannot be
right.**  No other token has the position of the error, the tokens before it begin something
that the grammar accepts, and together with it they begin nothing that it accepts. -/
theorem parseExpression_fails_at_first_impossible {text : String} {err : ParseError}
    (h : parseExpression text = .error (.parse err)) :
    ∃ before t after, tokenize text = .ok (before ++ t :: after) ∧ t.position = err.position ∧
      (∀ t' ∈ before ++ after, t'.position ≠ err.position) ∧
      (∃ more, Accepted (before.map Token.kind ++ more)) ∧
      ¬∃ more, Accepted (before.map Token.kind ++ t.kind :: more) := by
  rw [parseExpression] at h
  cases htokens : tokenize text with
  | error e =>
    rw [htokens] at h
    cases h
  | ok tokens =>
    have hread : parseTokens tokens = .error err := by
      rw [htokens] at h
      dsimp only at h
      split at h
      · rename_i found hfound
        cases h
        exact hfound
      · cases h
    have hascending := ascending_of_tokenize htokens
    obtain ⟨ts, rfl, -⟩ := tiles_of_tokenize htokens
    obtain ⟨before, t, after, hsplit, hposition, hviable, himpossible⟩ :=
      parseTokens_fails (by simp [Parser.Ended, Token.endOf]) hread
    rw [hsplit] at hascending ⊢
    obtain ⟨-, hright, hleft⟩ := List.pairwise_append.1 hascending
    refine ⟨before, t, after, rfl, hposition, fun t' ht' => ?_, hviable, himpossible⟩
    rw [← hposition]
    rcases List.mem_append.1 ht' with ht' | ht'
    · exact (hleft t' ht' t List.mem_cons_self).ne
    · exact ((List.pairwise_cons.1 hright).1 t' ht').ne'

/-- `(rock OR Artist: live` fails at `live`, where a quoted pattern would have been right. -/
theorem parseExpression_fails_at_unquoted_pattern :
    parseExpression "(rock OR Artist: live" =
        .error (.parse ⟨17, "a pattern after the tag", "`live`"⟩) ∧
      ∃ before t after, tokenize "(rock OR Artist: live" = .ok (before ++ t :: after) ∧
        t.position = 17 ∧ (∀ t' ∈ before ++ after, t'.position ≠ 17) ∧
        (∃ more, Accepted (before.map Token.kind ++ more)) ∧
        ¬∃ more, Accepted (before.map Token.kind ++ t.kind :: more) := by
  have hfails : parseExpression "(rock OR Artist: live" =
      .error (.parse ⟨17, "a pattern after the tag", "`live`"⟩) := by decide +kernel
  exact ⟨hfails, parseExpression_fails_at_first_impossible hfails⟩

end MusicCollections

/-
# Tokens tile their text

The tokens of a text stand side by side, with nothing but white space between them
(`Tiles`).  Reading goes on from one to the next, and stops only before a character that no
token begins with or before a quotation that no quote ends (`tiles_or_stops`).

So a text has tokens that cover it (`Covers`), or it has faults, and the first of them is
reported (`tokenize_covers_or_faults`).  What is a fault is said without reading tokens:
outside quotations, a character that may stand only inside them, or a quote that opens a
quotation without an end (`FaultAt`).
-/

import MusicCollections.Proofs.Expression.Lexemes
import MusicCollections.Proofs.Text

namespace MusicCollections
namespace Token

/-- From the position on, the characters are those of the tokens, apart from white space.
No bare word goes on after its token. -/
inductive Tiles : Nat → List Char → List Token → Prop
  | nil {position} : Tiles position [] []
  | blank {position c cs ts} : Text.isBlank c = true → Tiles (position + 1) cs ts →
      Tiles position (c :: cs) ts
  | token {position lexeme kind cs ts} : Lexeme lexeme kind → (IsBare lexeme → Boundary cs) →
      Tiles (position + lexeme.length) cs ts →
      Tiles position (lexeme ++ cs) (⟨kind, String.ofList lexeme, position⟩ :: ts)

/-- No token begins with the character, and it is no white space either. -/
def Foreign (c : Char) : Prop :=
  Text.isBlank c = false ∧ isWordChar c = false ∧ c ≠ '(' ∧ c ≠ ')' ∧ c ≠ '"'

/-- Reading stops before the character and those after it. -/
def Stops (c : Char) (after : List Char) : Prop :=
  Foreign c ∨ c = '"' ∧ readQuoted after = none

/-- The error of reading that stops before the character. -/
def stopError (c : Char) (position : Nat) : TokenError :=
  if c = '"' then .unterminatedString position else .unexpectedChar c position

/-- No quotation is open after the characters. -/
inductive Closed : List Char → Prop
  | nil : Closed []
  | cons {c cs} : c ≠ '"' → Closed cs → Closed (c :: cs)
  | quotation {body value cs} : Quotation body value → Closed cs →
      Closed ('"' :: (body ++ '"' :: cs))

/-- The tokens cover the characters. -/
structure Covers (cs : List Char) (ts : List Token) : Prop where
  /-- The characters from its position on make each token, and a bare word is as long as it
  can be. -/
  spelled : ∀ t ∈ ts, Lexeme t.text.toList t.kind ∧
    ∃ before after, cs = before ++ (t.text.toList ++ after) ∧ before.length = t.position ∧
      (IsBare t.text.toList →
        (∀ c ∈ before.getLast?, isWordChar c = false) ∧ ∀ c ∈ after.head?, isWordChar c = false)
  apart : ts.Pairwise fun t t' => t.position + t.text.length ≤ t'.position
  blank_between : ∀ i c, cs[i]? = some c →
    (∀ t ∈ ts, i < t.position ∨ t.position + t.text.length ≤ i) → Text.isBlank c = true

/-- The characters have the fault, at its position: outside quotations, a character that no
token begins with, or a quote that is followed by none that ends its quotation. -/
def FaultAt (cs : List Char) : TokenError → Prop
  | .unexpectedChar c position =>
    Closed (cs.take position) ∧ cs[position]? = some c ∧ Foreign c
  | .unterminatedString position =>
    Closed (cs.take position) ∧ cs[position]? = some '"' ∧
      ∀ before after, cs.drop (position + 1) = before ++ '"' :: after → ¬EndsQuotation before

variable {c : Char} {cs rest before after lexeme : List Char} {kind : TokenKind}
  {ts : List Token} {position : Nat}

/-! ## Reading on -/

/-- Text that begins in no white space begins with a token, or reading stops. -/
theorem lexeme_or_stops (hc : Text.isBlank c = false) (cs : List Char) :
    (∃ lexeme rest kind, c :: cs = lexeme ++ rest ∧ Lexeme lexeme kind ∧
      (IsBare lexeme → Boundary rest)) ∨ Stops c cs := by
  have hparenthesis : ∀ d, isWordChar d = false → IsBare [d] → Boundary cs := fun d hd hbare =>
    absurd hbare (not_isBare_cons hd [])
  by_cases hopening : c = '('
  · subst hopening
    exact .inl ⟨['('], cs, _, rfl, .opening, hparenthesis _ (by decide)⟩
  by_cases hclosing : c = ')'
  · subst hclosing
    exact .inl ⟨[')'], cs, _, rfl, .closing, hparenthesis _ (by decide)⟩
  by_cases hquote : c = '"'
  · subst hquote
    cases hread : readQuoted cs with
    | none => exact .inr (.inr ⟨rfl, hread⟩)
    | some found =>
      obtain ⟨body, rest, rfl, -, hbody⟩ := quotation_of_readQuoted hread
      refine .inl ⟨'"' :: (body ++ ['"']), rest, _, by simp, .quoted hbody, fun hbare => ?_⟩
      exact absurd hbare (not_isBare_cons (by decide) _)
  cases hword : isWordChar c with
  | false => exact .inr (.inl ⟨hc, hword, hopening, hclosing, hquote⟩)
  | true =>
    -- The word is as long as it can be.
    have hsplit := List.takeWhile_append_dropWhile (p := isWordChar) (l := c :: cs)
    refine .inl ⟨_, _, _, hsplit.symm, .word (by simp [hword]) fun d hd => ?_, fun _ d hd => ?_⟩
    · exact List.mem_takeWhile_imp hd
    · obtain ⟨left, hleft⟩ := List.head?_eq_some_iff.1 hd
      exact Text.head_of_dropWhile hleft

/-- **Reading goes on to the end, or to a character that it stops before.** -/
theorem tiles_or_stops (position : Nat) (cs : List Char) :
    (∃ ts, Tiles position cs ts) ∨
      ∃ before c after ts, cs = before ++ c :: after ∧ Tiles position before ts ∧
        Stops c after := by
  induction hn : cs.length using Nat.strong_induction_on generalizing position cs with
  | _ n ih =>
  subst hn
  rcases cs with _ | ⟨c, cs⟩
  · exact .inl ⟨[], .nil⟩
  cases hblank : Text.isBlank c with
  | true =>
    rcases ih cs.length (by simp) (position + 1) cs rfl with
      ⟨ts, hts⟩ | ⟨before, d, after, ts, rfl, hts, hstops⟩
    · exact .inl ⟨ts, .blank hblank hts⟩
    · exact .inr ⟨c :: before, d, after, ts, rfl, .blank hblank hts, hstops⟩
  | false =>
    rcases lexeme_or_stops hblank cs with ⟨lexeme, rest, kind, hcs, hlexeme, hbare⟩ | hstops
    · have hlength := List.length_pos_iff.2 hlexeme.ne_nil
      rw [hcs, List.length_append] at ih
      rcases ih rest.length (by omega) (position + lexeme.length) rest rfl with
        ⟨ts, hts⟩ | ⟨before, d, after, ts, rfl, hts, hstops⟩
      · rw [hcs]
        exact .inl ⟨_, .token hlexeme hbare hts⟩
      · refine .inr ⟨lexeme ++ before, d, after, _, ?_, .token hlexeme ?_ hts, hstops⟩
        · rw [hcs, List.append_assoc]
        · exact fun h => (hbare h).of_append
    · exact .inr ⟨[], c, cs, [], rfl, .nil, hstops⟩

/-- **Characters are read as the tokens that tile them**, whatever follows that no word goes
on into. -/
theorem Tiles.tokensFrom_append (h : Tiles position cs ts) (hrest : Boundary rest) :
    tokensFrom 0 position (cs ++ rest) =
      (tokensFrom 0 (position + cs.length) rest).map (ts ++ ·) := by
  induction h with
  | nil =>
    rw [List.nil_append, List.length_nil, Nat.add_zero]
    cases tokensFrom 0 _ rest <;> rfl
  | blank hblank _ ih =>
    rw [List.cons_append, tokensFrom, if_pos hblank, ih, List.length_cons, Nat.add_right_comm,
      Nat.add_assoc]
  | @token position _ _ _ _ hlexeme hbare _ ih =>
    have hnext := hlexeme.tokensFrom_append (fun h => (hbare h).append hrest) position
    rw [List.append_assoc, hnext, ih, List.length_append, Nat.add_assoc]
    cases tokensFrom 0 _ rest <;> rfl

/-- No word goes on into what reading stops before. -/
theorem Stops.boundary (h : Stops c after) : Boundary (c :: after) := by
  refine boundary_cons ?_ after
  rcases h with h | ⟨rfl, -⟩
  · exact h.2.1
  · decide

/-- Where reading stops, the error says why. -/
theorem Stops.tokensFrom (h : Stops c after) (position : Nat) :
    tokensFrom 0 position (c :: after) = .error (stopError c position) := by
  rw [Token.tokensFrom, stopError]
  rcases h with ⟨hblank, hword, hopening, hclosing, hquote⟩ | ⟨rfl, hread⟩
  · simp [hblank, hword, hopening, hclosing, hquote]
  · have hblank : Text.isBlank '"' = false := by decide
    simp [hblank, hread]

/-! ## Faults -/

/-- A character other than a quote opens and closes no quotation. -/
theorem closed_cons_iff (h : c ≠ '"') : Closed (c :: cs) ↔ Closed cs := by
  refine ⟨fun hclosed => ?_, .cons h⟩
  cases hclosed with
  | cons _ hcs => exact hcs
  | quotation => exact absurd rfl h

/-- Characters other than quotes open and close no quotation. -/
theorem closed_append_iff {word : List Char} (hword : '"' ∉ word) :
    Closed (word ++ cs) ↔ Closed cs := by
  induction word with
  | nil => exact Iff.rfl
  | cons c word ih =>
    rw [List.mem_cons, not_or] at hword
    rw [List.cons_append, closed_cons_iff (Ne.symm hword.1), ih hword.2]

/-- No quotation is open after a lexeme, if none is open after what follows it. -/
theorem closed_append_lexeme (h : Lexeme lexeme kind) (hcs : Closed cs) :
    Closed (lexeme ++ cs) := by
  cases h with
  | opening | closing => exact .cons (by decide) hcs
  | quoted hbody =>
    rw [List.cons_append, List.append_assoc]
    exact .quotation hbody hcs
  | word _ hchars =>
    exact (closed_append_iff fun hmem => absurd (hchars '"' hmem) (by decide)).2 hcs

/-- No quotation is open after tokens. -/
theorem Tiles.closed (h : Tiles position cs ts) : Closed cs := by
  induction h with
  | nil => exact .nil
  | blank hblank _ ih =>
    refine .cons ?_ ih
    rintro rfl
    exact absurd hblank (by decide)
  | token hlexeme _ _ ih => exact closed_append_lexeme hlexeme ih

/-- Reading does not stop before a character of a word or a parenthesis. -/
theorem closed_after_word (hword : ∀ d ∈ lexeme, d ≠ '"' ∧ ¬Foreign d) (hclosed : Closed before)
    (hsplit : lexeme ++ rest = before ++ c :: after) (hstops : Stops c after) :
    ∃ left, before = lexeme ++ left ∧ Closed left ∧ rest = left ++ c :: after := by
  have hquote : '"' ∉ lexeme := fun hmem => (hword '"' hmem).1 rfl
  rcases List.append_eq_append_iff.1 hsplit with ⟨left, rfl, hrest⟩ | ⟨left, hlexeme, hrest⟩
  · exact ⟨left, rfl, (closed_append_iff hquote).1 hclosed, hrest⟩
  · cases left with
    | nil => exact ⟨[], by simpa using hlexeme.symm, .nil, hrest.symm⟩
    | cons d left =>
      obtain ⟨rfl, -⟩ := List.cons.inj hrest
      obtain ⟨hc, hforeign⟩ := hword c (by simp [hlexeme])
      rcases hstops with h | ⟨h, -⟩
      · exact absurd h hforeign
      · exact absurd h hc

/-- Outside quotations, reading does not stop before a character of a token. -/
theorem closed_after_lexeme (h : Lexeme lexeme kind) (hclosed : Closed before)
    (hsplit : lexeme ++ rest = before ++ c :: after) (hstops : Stops c after) :
    ∃ left, before = lexeme ++ left ∧ Closed left ∧ rest = left ++ c :: after := by
  cases h with
  | opening | closing =>
    refine closed_after_word (fun d hd => ?_) hclosed hsplit hstops
    obtain rfl := List.mem_singleton.1 hd
    exact ⟨by decide, fun hforeign => by simp [Foreign] at hforeign⟩
  | word _ hchars =>
    refine closed_after_word (fun d hd => ⟨?_, fun hforeign => ?_⟩) hclosed hsplit hstops
    · rintro rfl
      exact absurd (hchars _ hd) (by decide)
    · exact absurd (hchars d hd) (by simp [hforeign.2.1])
  | quoted hbody =>
    rw [List.cons_append, List.append_assoc, List.singleton_append] at hsplit
    cases before with
    | nil =>
      -- The quotation that begins here has an end.
      obtain ⟨rfl, rfl⟩ := List.cons.inj hsplit
      rcases hstops with h | ⟨-, hread⟩
      · exact absurd rfl h.2.2.2.2
      · cases (hbody.readQuoted rest).symm.trans hread
    | cons d before =>
      rw [List.cons_append] at hsplit
      obtain ⟨rfl, hinside⟩ := List.cons.inj hsplit
      cases hclosed with
      | cons hd _ => exact absurd rfl hd
      | quotation hbody' hleft =>
        rw [List.append_assoc, List.cons_append] at hinside
        obtain ⟨rfl, hrest⟩ := hbody.body_unique hbody' hinside
        exact ⟨_, by simp, hleft, hrest⟩

/-- **Outside quotations, reading stops nowhere in tokens.** -/
theorem Tiles.length_le_of_stops (h : Tiles position cs ts) (hclosed : Closed before)
    (hsplit : cs ++ rest = before ++ c :: after) (hstops : Stops c after) :
    cs.length ≤ before.length := by
  induction h generalizing before with
  | nil => exact Nat.zero_le _
  | @blank _ d cs _ hblank _ ih =>
    have hd : d ≠ '"' := by
      rintro rfl
      exact absurd hblank (by decide)
    cases before with
    | nil =>
      obtain ⟨rfl, -⟩ := List.cons.inj hsplit
      rcases hstops with h | ⟨h, -⟩
      · exact absurd hblank (by simp [h.1])
      · exact absurd h hd
    | cons e before =>
      obtain ⟨rfl, hnext⟩ := List.cons.inj hsplit
      have hle := ih ((closed_cons_iff hd).1 hclosed) hnext
      simpa using hle
  | token hlexeme _ _ ih =>
    rw [List.append_assoc] at hsplit
    obtain ⟨left, rfl, hleft, hrest⟩ := closed_after_lexeme hlexeme hclosed hsplit hstops
    have hle := ih hleft hrest
    simp only [List.length_append]
    omega

/-- **A fault is where reading stops, outside quotations.** -/
theorem faultAt_iff {e : TokenError} : FaultAt cs e ↔ ∃ before c after,
    cs = before ++ c :: after ∧ Closed before ∧ Stops c after ∧ e = stopError c before.length := by
  have hsplit : ∀ {position : Nat} {c : Char}, cs[position]? = some c →
      cs = cs.take position ++ c :: cs.drop (position + 1) ∧
        (cs.take position).length = position := by
    intro position c hc
    obtain ⟨hlt, rfl⟩ := List.getElem?_eq_some_iff.1 hc
    refine ⟨?_, List.length_take_of_le hlt.le⟩
    rw [← List.drop_eq_getElem_cons hlt, List.take_append_drop]
  constructor
  · intro h
    cases e with
    | unexpectedChar c position =>
      obtain ⟨hclosed, hc, hforeign⟩ := h
      obtain ⟨hcs, hlength⟩ := hsplit hc
      refine ⟨_, c, _, hcs, hclosed, .inl hforeign, ?_⟩
      rw [stopError, if_neg hforeign.2.2.2.2, hlength]
    | unterminatedString position =>
      obtain ⟨hclosed, hc, hopen⟩ := h
      obtain ⟨hcs, hlength⟩ := hsplit hc
      refine ⟨_, '"', _, hcs, hclosed, .inr ⟨rfl, readQuoted_eq_none_iff.2 hopen⟩, ?_⟩
      rw [stopError, if_pos rfl, hlength]
  · rintro ⟨before, c, after, rfl, hclosed, hstops, rfl⟩
    rcases hstops with hforeign | ⟨rfl, hread⟩
    · rw [stopError, if_neg hforeign.2.2.2.2]
      exact ⟨by simpa using hclosed, by simp, hforeign⟩
    · rw [stopError, if_pos rfl]
      refine ⟨by simpa using hclosed, by simp, ?_⟩
      have hafter : (before ++ '"' :: after).drop (before.length + 1) = after := by
        simp
      rw [hafter]
      exact readQuoted_eq_none_iff.1 hread

/-- Reading that stops reports where it does. -/
@[simp] theorem position_stopError (c : Char) (position : Nat) :
    (stopError c position).position = position := by
  unfold stopError
  split <;> rfl

/-- Characters that tokens tile have no fault, and what follows them has none before its
start. -/
theorem Tiles.length_le_position {e : TokenError} (h : Tiles position cs ts)
    (hfault : FaultAt (cs ++ rest) e) : cs.length ≤ e.position := by
  obtain ⟨before, c, after, hsplit, hclosed, hstops, rfl⟩ := faultAt_iff.1 hfault
  rw [position_stopError]
  exact h.length_le_of_stops hclosed hsplit hstops

/-- A fault is at one of the characters. -/
theorem FaultAt.position_lt {e : TokenError} (h : FaultAt cs e) : e.position < cs.length := by
  obtain ⟨before, c, after, rfl, -, -, rfl⟩ := faultAt_iff.1 h
  simp

/-- Two faults at one position are the same. -/
theorem FaultAt.unique {e e' : TokenError} (h : FaultAt cs e) (h' : FaultAt cs e')
    (hposition : e.position = e'.position) : e = e' := by
  obtain ⟨before, c, after, rfl, -, -, rfl⟩ := faultAt_iff.1 h
  obtain ⟨before', c', after', hsplit, -, -, rfl⟩ := faultAt_iff.1 h'
  rw [position_stopError, position_stopError] at hposition
  obtain ⟨-, hnext⟩ := List.append_inj hsplit hposition
  rw [(List.cons.inj hnext).1, hposition]

/-! ## What tokens cover -/

namespace Tiles

/-- No token is before the position that the tiling begins at. -/
theorem position_le (h : Tiles position cs ts) : ∀ t ∈ ts, position ≤ t.position := by
  induction h with
  | nil => exact nofun
  | blank _ _ ih =>
    intro t ht
    have hle := ih t ht
    omega
  | token _ _ _ ih =>
    intro t ht
    rcases List.mem_cons.1 ht with rfl | ht
    · exact Nat.le_refl _
    · have hle := ih t ht
      omega

/-- White space is of no word. -/
theorem isWordChar_eq_false (h : Text.isBlank c = true) : isWordChar c = false := by
  simp [isWordChar, h]

/-- **Each token is spelled at its position**, and a word is not a part of a longer one. -/
theorem spelled (h : Tiles position cs ts) : ∀ t ∈ ts, Lexeme t.text.toList t.kind ∧
    ∃ before after, cs = before ++ (t.text.toList ++ after) ∧
      position + before.length = t.position ∧
      (IsBare t.text.toList →
        (∀ c ∈ before.getLast?, isWordChar c = false) ∧ Boundary after) := by
  induction h with
  | nil => exact nofun
  | @blank _ d _ _ hblank _ ih =>
    intro t ht
    obtain ⟨hlexeme, before, after, rfl, hposition, hbare⟩ := ih t ht
    refine ⟨hlexeme, d :: before, after, rfl, ?_, fun h => ⟨fun c hc => ?_, (hbare h).2⟩⟩
    · rw [List.length_cons]
      omega
    · cases before with
      | nil =>
        obtain rfl := Option.some.inj hc
        exact isWordChar_eq_false hblank
      | cons => exact (hbare h).1 c (by simpa using hc)
  | @token position lexeme kind cs ts hfirst hboundary _ ih =>
    intro t ht
    rcases List.mem_cons.1 ht with rfl | ht
    · rw [String.toList_ofList]
      exact ⟨hfirst, [], cs, rfl, rfl, fun h => ⟨nofun, hboundary h⟩⟩
    · obtain ⟨hlexeme, before, after, rfl, hposition, hbare⟩ := ih t ht
      refine ⟨hlexeme, lexeme ++ before, after, by simp, ?_, fun h => ⟨?_, (hbare h).2⟩⟩
      · rw [List.length_append]
        omega
      · cases before with
        | cons => simpa [List.getLast?_append] using (hbare h).1
        | nil =>
          -- No word stands right before another one.
          rw [List.append_nil]
          refine hfirst.isWordChar_ends fun hword => ?_
          obtain ⟨d, left, hd⟩ := List.exists_cons_of_ne_nil hlexeme.ne_nil
          have hstart := hboundary hword d (by simp [hd])
          rw [h d (by simp [hd])] at hstart
          cases hstart

/-- No two tokens overlap. -/
theorem apart (h : Tiles position cs ts) :
    ts.Pairwise fun t t' => t.position + t.text.length ≤ t'.position := by
  induction h with
  | nil => exact .nil
  | blank _ _ ih => exact ih
  | token _ _ hrest ih =>
    refine List.pairwise_cons.2 ⟨fun t ht => ?_, ih⟩
    rw [String.length_ofList]
    exact hrest.position_le t ht

/-- A character that is in no token is white space. -/
theorem blank_between (h : Tiles position cs ts) : ∀ i c, cs[i]? = some c →
    (∀ t ∈ ts, position + i < t.position ∨ t.position + t.text.length ≤ position + i) →
    Text.isBlank c = true := by
  induction h with
  | nil => simp
  | blank hblank _ ih =>
    rintro (_ | i) c hc houtside
    · obtain rfl := Option.some.inj hc
      exact hblank
    · refine ih i c (by simpa using hc) fun t ht => ?_
      have h := houtside t ht
      omega
  | @token position lexeme _ _ _ _ _ _ ih =>
    intro i c hc houtside
    have hfirst := houtside _ List.mem_cons_self
    simp only [String.length_ofList] at hfirst
    -- The place is not in the first token, so it comes after it.
    obtain ⟨j, rfl⟩ : ∃ j, i = lexeme.length + j := ⟨i - lexeme.length, by omega⟩
    rw [List.getElem?_append_right (Nat.le_add_right _ _), Nat.add_sub_cancel_left] at hc
    refine ih j c hc fun t ht => ?_
    have h := houtside t (List.mem_cons_of_mem _ ht)
    omega

/-- **Tokens that tile characters cover them.** -/
theorem covers (h : Tiles 0 cs ts) : Covers cs ts where
  spelled t ht := by
    have hspelled := h.spelled t ht
    simp only [Nat.zero_add] at hspelled
    exact hspelled
  apart := h.apart
  blank_between := by simpa only [Nat.zero_add] using h.blank_between

/-- Each token begins before the next one, and all before a token at the end. -/
theorem ascending (h : Tiles position cs ts) (last : Token)
    (hlast : last.position = position + cs.length) :
    (ts ++ [last]).Pairwise fun t t' => t.position < t'.position := by
  have hnext : ∀ t ∈ ts, 0 < t.text.length ∧ t.position + t.text.length ≤ last.position := by
    intro t ht
    obtain ⟨hlexeme, before, after, rfl, hposition, -⟩ := h.spelled t ht
    have hlength := List.length_pos_iff.2 hlexeme.ne_nil
    simp only [List.length_append, String.length_toList] at hlast hlength
    omega
  refine List.pairwise_append.2 ⟨?_, List.pairwise_singleton _ _, fun t ht t' ht' => ?_⟩
  · refine h.apart.imp_of_mem fun ht _ hle => ?_
    have hpos := hnext _ ht
    omega
  · obtain rfl := List.mem_singleton.1 ht'
    have hpos := hnext t ht
    omega

end Tiles
end Token

/-! ## Whole texts -/

open Token

variable {text : String} {tokens : List Token} {e : TokenError}

/-- The token that ends a text. -/
def Token.endOf (text : String) : Token := ⟨.finish, "", text.length⟩

/-- **A text is tiled by its tokens, or reading stops in it.** -/
theorem tokenize_cases (text : String) :
    (∃ ts, Tiles 0 text.toList ts ∧ tokenize text = .ok (ts ++ [endOf text])) ∨
      ∃ before c after ts, text.toList = before ++ c :: after ∧ Tiles 0 before ts ∧
        Stops c after ∧ tokenize text = .error (stopError c before.length) := by
  rcases tiles_or_stops 0 text.toList with ⟨ts, hts⟩ | ⟨before, c, after, ts, hcs, hts, hstops⟩
  · have hread := hts.tokensFrom_append (nofun : Boundary [])
    rw [List.append_nil, tokensFrom, Nat.zero_add, String.length_toList] at hread
    exact .inl ⟨ts, hts, hread⟩
  · have hread := hts.tokensFrom_append hstops.boundary
    rw [hstops.tokensFrom, Nat.zero_add] at hread
    exact .inr ⟨before, c, after, ts, hcs, hts, hstops, by rw [tokenize, hcs, hread]; rfl⟩

/-- The tokens of a text tile it, up to its end. -/
theorem tiles_of_tokenize (h : tokenize text = .ok tokens) :
    ∃ ts, tokens = ts ++ [endOf text] ∧ Tiles 0 text.toList ts := by
  rcases tokenize_cases text with ⟨ts, hts, hread⟩ | ⟨_, _, _, _, _, _, _, hread⟩
  · exact ⟨ts, Except.ok.inj (h.symm.trans hread), hts⟩
  · cases h.symm.trans hread

/-- The tokens of a text are in ascending order of their positions. -/
theorem ascending_of_tokenize (h : tokenize text = .ok tokens) :
    tokens.Pairwise fun t t' => t.position < t'.position := by
  obtain ⟨ts, rfl, hts⟩ := tiles_of_tokenize h
  refine hts.ascending _ ?_
  rw [Nat.zero_add, String.length_toList]
  rfl

/-- A text that has tokens has no fault. -/
theorem not_faultAt_of_tokenize (h : tokenize text = .ok tokens) : ¬FaultAt text.toList e := by
  intro hfault
  obtain ⟨ts, -, hts⟩ := tiles_of_tokenize h
  rw [← List.append_nil text.toList] at hfault
  have hle := hts.length_le_position hfault
  have hlt := hfault.position_lt
  rw [List.append_nil] at hlt
  omega

/-- **The first fault is reported**, and what stands before it has tokens. -/
theorem faultAt_of_tokenize (h : tokenize text = .error e) :
    FaultAt text.toList e ∧ (∀ e', FaultAt text.toList e' → e.position ≤ e'.position) ∧
      ∃ tokens, tokenize (String.ofList (text.toList.take e.position)) = .ok tokens := by
  rcases tokenize_cases text with
    ⟨ts, -, hread⟩ | ⟨before, c, after, ts, hcs, hts, hstops, hread⟩
  · cases h.symm.trans hread
  · obtain rfl := Except.error.inj (h.symm.trans hread)
    rw [hcs, position_stopError, List.take_left]
    refine ⟨faultAt_iff.2 ⟨before, c, after, rfl, hts.closed, hstops, rfl⟩,
      fun e' => hts.length_le_position, ?_⟩
    have hbefore := hts.tokensFrom_append (nofun : Boundary [])
    rw [List.append_nil, tokensFrom] at hbefore
    exact ⟨_, by rw [tokenize, String.toList_ofList, hbefore]; rfl⟩

/-- **Reading drops nothing of a text.**  If it has tokens, they cover it: they end in the
only end token, which stands after the last character, and every other one is made of the
characters from its position on, one behind the other, with nothing but white space between
them; a bare word goes as far as it can.  Then the text has no fault.  If it has faults, the
first one is reported, and what stands before that has tokens. -/
theorem tokenize_covers_or_faults (text : String) :
    (∀ tokens, tokenize text = .ok tokens →
      (∃ ts, tokens = ts ++ [⟨.finish, "", text.length⟩] ∧ (∀ t ∈ ts, t.kind ≠ .finish) ∧
        Covers text.toList ts) ∧
      tokens.Pairwise (fun t t' => t.position < t'.position) ∧
      ∀ e, ¬FaultAt text.toList e) ∧
    (∀ e, tokenize text = .error e ↔
      FaultAt text.toList e ∧ ∀ e', FaultAt text.toList e' → e.position ≤ e'.position) ∧
    ∀ e, tokenize text = .error e →
      ∃ tokens, tokenize (String.ofList (text.toList.take e.position)) = .ok tokens := by
  refine ⟨fun tokens h => ?_, fun e => ⟨fun h => ?_, fun ⟨hfault, hfirst⟩ => ?_⟩, fun e h => ?_⟩
  · obtain ⟨ts, rfl, hts⟩ := tiles_of_tokenize h
    exact ⟨⟨ts, rfl, fun t ht => (hts.spelled t ht).1.ne_finish, hts.covers⟩,
      ascending_of_tokenize h, fun e => not_faultAt_of_tokenize h⟩
  · obtain ⟨hfault, hfirst, -⟩ := faultAt_of_tokenize h
    exact ⟨hfault, hfirst⟩
  · cases hread : tokenize text with
    | ok tokens => exact absurd hfault (not_faultAt_of_tokenize hread)
    | error found =>
      obtain ⟨hfound, hleast, -⟩ := faultAt_of_tokenize hread
      rw [hfault.unique hfound (Nat.le_antisymm (hfirst _ hfound) (hleast _ hfault))]
  · exact (faultAt_of_tokenize h).2.2

/-- The backslash at the end takes the meaning from the last quote. -/
example : tokenize "(live \"no = \\\"" = .error (.unterminatedString 6) := rfl

end MusicCollections

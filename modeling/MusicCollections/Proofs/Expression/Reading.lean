/-
# Reading an expression

The parser reads exactly what the grammar spells.  What it reads was spelled, token by
token, by what it leaves behind (`Sound`), and what is spelled it reads, up to the first
token that could not go on (`Read`).  A list of tokens that ends in its only end token is
therefore an expression if and only if the tokens before the end spell one, and then it is
that expression (`parseTokens_eq_ok_iff_spells`).
-/

import MusicCollections.Expression.Parser
import MusicCollections.Proofs.Expression.Grammar
import MusicCollections.Proofs.Text

namespace MusicCollections

open Grammar

namespace Parser

variable {fuel : Nat} {level : Level} {c c' c'' : Cursor} {e e' left : Expression} {tag : Tag}

@[simp] theorem Cursor.current_cons (t last : Token) (rest : List Token) :
    (Cursor.mk (t :: rest) last).current = t := rfl

@[simp] theorem Cursor.advance_cons (t last : Token) (rest : List Token) :
    (Cursor.mk (t :: rest) last).advance = ⟨rest, last⟩ := rfl

/-! ## What is read is spelled -/

/-- Between two cursors stand tokens that spell the expression. -/
def Reads (level : Level) (c : Cursor) (e : Expression) (c' : Cursor) : Prop :=
  ∃ ts, c.rest = ts ++ c'.rest ∧ c'.last = c.last ∧ Derives level (ts.map Token.kind) e.collapse

/-- Between two cursors stand tokens that go on from one expression to another. -/
def Extends (level : Level) (c : Cursor) (left e : Expression) (c' : Cursor) : Prop :=
  ∃ ts, c.rest = ts ++ c'.rest ∧ c'.last = c.last ∧
    ∀ ks, Derives level ks left.collapse → Derives level (ks ++ ts.map Token.kind) e.collapse

/-- Where the tokens end in an end token, any other that is read is still left. -/
theorem rest_eq_cons (hlast : c.last.kind = .finish) (h : c.current.kind ≠ .finish) :
    c.rest = c.current :: c.advance.rest := by
  rcases c with ⟨_ | ⟨t, rest⟩, last⟩
  · exact absurd hlast h
  · rfl

/-- Reading does not change the last token. -/
theorem Reads.last_eq (h : Reads level c e c') : c'.last = c.last := by
  obtain ⟨_, _, hlast, _⟩ := h
  exact hlast

/-- What goes on from an expression that was read is read with it. -/
theorem Reads.extend (h : Reads level c left c') (h' : Extends level c' left e c'') :
    Reads level c e c'' := by
  obtain ⟨ts, hrest, hlast, hderives⟩ := h
  obtain ⟨ts', hrest', hlast', hextends⟩ := h'
  refine ⟨ts ++ ts', by rw [hrest, hrest', List.append_assoc], hlast'.trans hlast, ?_⟩
  rw [List.map_append]
  exact hextends _ hderives

/-- Between a cursor and itself, an expression goes on to itself. -/
theorem Extends.refl (level : Level) (c : Cursor) (e : Expression) : Extends level c e e c :=
  ⟨[], rfl, rfl, fun ks h => by simpa using h⟩

/-- An operator and its right operand go on from the left one. -/
theorem Extends.operand {inner : Level} {right : Expression} {k : TokenKind}
    (hlast : c.last.kind = .finish) (hkind : c.current.kind = k) (hk : k ≠ .finish)
    (hright : Reads inner c.advance right c')
    (hrule : ∀ {ks ks'}, Derives level ks left.collapse → Derives inner ks' right.collapse →
      Derives level (ks ++ k :: ks') e.collapse)
    (hrest : Extends level c' e e' c'') : Extends level c left e' c'' := by
  obtain ⟨ts, hts, htsLast, hderives⟩ := hright
  obtain ⟨ts', hts', htsLast', hextends⟩ := hrest
  refine ⟨c.current :: ts ++ ts', ?_, ?_, ?_⟩
  · rw [rest_eq_cons hlast (hkind ▸ hk), hts, hts']
    simp
  · rw [htsLast', htsLast]
    rfl
  · intro ks hks
    have hboth := hextends _ (hrule hks hderives)
    simpa [hkind] using hboth

/-- What a quoted pattern is read as. -/
theorem reads_quotedPattern {word tagName : String} (hlast : c.last.kind = .finish)
    (hkind : c.current.kind = .word word) (hword : word = tagName ++ ":")
    (htag : Text.asciiLower tagName = tag.name)
    (h : quotedPattern tag c.advance = .ok (e, c')) : Reads .primary c e c' := by
  unfold quotedPattern at h
  split at h
  · rename_i pattern hquoted
    obtain ⟨rfl, rfl⟩ := Prod.mk.inj (Except.ok.inj h)
    refine ⟨[c.current, c.advance.current], ?_, rfl, ?_⟩
    · have hrest := rest_eq_cons hlast (by simp [hkind])
      have hrest' := rest_eq_cons (c := c.advance) hlast (by simp [hquoted])
      rw [hrest, hrest']
      rfl
    · simp only [List.map_cons, List.map_nil, hkind, hquoted, hword]
      exact .quotedFilter htag
  · cases h

/-- What a word is read as: a name, or a filter. -/
theorem reads_wordOperand {word : String} (hlast : c.last.kind = .finish)
    (hkind : c.current.kind = .word word)
    (h : wordOperand c.current.position word c.advance = .ok (e, c')) : Reads .primary c e c' := by
  have hrest := rest_eq_cons hlast (by simp [hkind])
  unfold wordOperand at h
  split at h
  · rename_i hcolon
    obtain ⟨rfl, rfl⟩ := Prod.mk.inj (Except.ok.inj h)
    refine ⟨[c.current], hrest, rfl, ?_⟩
    rw [List.map_singleton, hkind]
    exact .name (Text.splitAtFirst_eq_none_iff.1 hcolon)
  · rename_i tagName pattern hcolon
    obtain ⟨hchars, -⟩ := Text.splitAtFirst_eq_some_iff.1 hcolon
    have hword : word = tagName ++ ":" ++ pattern := by
      rw [← String.toList_inj, hchars]
      simp
    split at h
    · cases h
    · rename_i tag htag
      rw [Tag.ofName?_eq_some_iff] at htag
      split at h
      · rename_i hempty
        obtain rfl := String.isEmpty_iff.1 hempty
        exact reads_quotedPattern hlast hkind (by simpa using hword) htag h
      · rename_i hne
        obtain ⟨rfl, rfl⟩ := Prod.mk.inj (Except.ok.inj h)
        refine ⟨[c.current], hrest, rfl, ?_⟩
        rw [List.map_singleton, hkind, hword]
        exact .filter htag fun h => hne (by simp [h])

/-- What the parser reads within `fuel` steps was spelled. -/
structure Sound (fuel : Nat) : Prop where
  or : ∀ {c e c'}, c.last.kind = .finish → parseOr fuel c = .ok (e, c') →
    Reads .disjunction c e c'
  orRest : ∀ {left c e c'}, c.last.kind = .finish → parseOrRest fuel left c = .ok (e, c') →
    Extends .disjunction c left e c'
  and : ∀ {c e c'}, c.last.kind = .finish → parseAnd fuel c = .ok (e, c') →
    Reads .conjunction c e c'
  andRest : ∀ {left c e c'}, c.last.kind = .finish → parseAndRest fuel left c = .ok (e, c') →
    Extends .conjunction c left e c'
  unary : ∀ {c e c'}, c.last.kind = .finish → parseUnary fuel c = .ok (e, c') →
    Reads .unary c e c'
  primary : ∀ {c e c'}, c.last.kind = .finish → parsePrimary fuel c = .ok (e, c') →
    Reads .primary c e c'

namespace Sound

/-- A disjunction that is read was spelled, if its parts were. -/
theorem parseOr (h : Sound fuel) (hlast : c.last.kind = .finish)
    (hread : parseOr (fuel + 1) c = .ok (e, c')) : Reads .disjunction c e c' := by
  rw [Parser.parseOr] at hread
  split at hread
  · cases hread
  · rename_i left c₁ hleft
    obtain ⟨ts, hrest, hsame, hderives⟩ := h.and hlast hleft
    have hextends := h.orRest (by rw [hsame, hlast]) hread
    exact Reads.extend ⟨ts, hrest, hsame, .ofConjunction hderives⟩ hextends

/-- A conjunction that is read was spelled, if its parts were. -/
theorem parseAnd (h : Sound fuel) (hlast : c.last.kind = .finish)
    (hread : parseAnd (fuel + 1) c = .ok (e, c')) : Reads .conjunction c e c' := by
  rw [Parser.parseAnd] at hread
  split at hread
  · cases hread
  · rename_i left c₁ hleft
    obtain ⟨ts, hrest, hsame, hderives⟩ := h.unary hlast hleft
    have hextends := h.andRest (by rw [hsame, hlast]) hread
    exact Reads.extend ⟨ts, hrest, hsame, .ofUnary hderives⟩ hextends

/-- The operands after OR that are read were spelled, if their parts were. -/
theorem parseOrRest (h : Sound fuel) (hlast : c.last.kind = .finish)
    (hread : parseOrRest (fuel + 1) left c = .ok (e, c')) : Extends .disjunction c left e c' := by
  rw [Parser.parseOrRest] at hread
  split at hread
  · rename_i hor
    split at hread
    · cases hread
    · rename_i right c₁ hright
      have hreads := h.and (c := c.advance) hlast hright
      have hrest := h.orRest (by rw [hreads.last_eq]; exact hlast) hread
      exact Extends.operand hlast hor (by decide) hreads .either hrest
  · obtain ⟨rfl, rfl⟩ := Prod.mk.inj (Except.ok.inj hread)
    exact Extends.refl _ _ _

/-- The operands after AND that are read were spelled, if their parts were. -/
theorem parseAndRest (h : Sound fuel) (hlast : c.last.kind = .finish)
    (hread : parseAndRest (fuel + 1) left c = .ok (e, c')) : Extends .conjunction c left e c' := by
  rw [Parser.parseAndRest] at hread
  split at hread
  · rename_i hand
    split at hread
    · cases hread
    · rename_i right c₁ hright
      have hreads := h.unary (c := c.advance) hlast hright
      have hrest := h.andRest (by rw [hreads.last_eq]; exact hlast) hread
      exact Extends.operand hlast hand (by decide) hreads .both hrest
  · obtain ⟨rfl, rfl⟩ := Prod.mk.inj (Except.ok.inj hread)
    exact Extends.refl _ _ _

/-- An operand with NOT before it that is read was spelled, if the operand was. -/
theorem parseUnary (h : Sound fuel) (hlast : c.last.kind = .finish)
    (hread : parseUnary (fuel + 1) c = .ok (e, c')) : Reads .unary c e c' := by
  rw [Parser.parseUnary] at hread
  split at hread
  · rename_i hnot
    split at hread
    · cases hread
    · rename_i operand c₁ hoperand
      obtain ⟨rfl, rfl⟩ := Prod.mk.inj (Except.ok.inj hread)
      obtain ⟨ts, hrest, hsame, hderives⟩ := h.unary (c := c.advance) hlast hoperand
      refine ⟨c.current :: ts, ?_, hsame, ?_⟩
      · rw [rest_eq_cons hlast (by simp [hnot]), hrest, List.cons_append]
      · rw [List.map_cons, hnot]
        exact .complement hderives
  · obtain ⟨ts, hrest, hsame, hderives⟩ := h.primary hlast hread
    exact ⟨ts, hrest, hsame, .ofPrimary hderives⟩

/-- A group that is closed was spelled, if what it holds was. -/
theorem closeGroup {inner : Expression} {c₁ : Cursor} (hlast : c.last.kind = .finish)
    (hopening : c.current.kind = .opening) (hinner : Reads .disjunction c.advance inner c₁)
    (hread : closeGroup inner c₁ = .ok (e, c')) : Reads .primary c e c' := by
  obtain ⟨ts, hrest, hsame, hderives⟩ := hinner
  unfold Parser.closeGroup at hread
  split at hread
  · rename_i hclosing
    obtain ⟨rfl, rfl⟩ := Prod.mk.inj (Except.ok.inj hread)
    have hrest₁ := rest_eq_cons (c := c₁) (by rw [hsame]; exact hlast) (by simp [hclosing])
    refine ⟨c.current :: (ts ++ [c₁.current]), ?_, hsame, ?_⟩
    · rw [rest_eq_cons hlast (by simp [hopening]), hrest, hrest₁]
      simp
    · simp only [List.map_cons, List.map_append, List.map_nil, hopening, hclosing]
      exact .group hderives
  · cases hread

/-- An operand that is read was spelled, if the group in it was. -/
theorem parsePrimary (h : Sound fuel) (hlast : c.last.kind = .finish)
    (hread : parsePrimary (fuel + 1) c = .ok (e, c')) : Reads .primary c e c' := by
  rw [Parser.parsePrimary] at hread
  split at hread
  · rename_i hopening
    split at hread
    · cases hread
    · rename_i inner c₁ hinner
      exact closeGroup hlast hopening (h.or (c := c.advance) hlast hinner) hread
  · rename_i name hquoted
    obtain ⟨rfl, rfl⟩ := Prod.mk.inj (Except.ok.inj hread)
    refine ⟨[c.current], rest_eq_cons hlast (by simp [hquoted]), rfl, ?_⟩
    rw [List.map_singleton, hquoted]
    exact .quotedName
  · rename_i word hword
    exact reads_wordOperand hlast hword hread
  · cases hread

end Sound

/-- **What the parser reads was spelled**, however many steps it may take. -/
theorem sound (fuel : Nat) : Sound fuel := by
  induction fuel with
  | zero => constructor <;> exact fun _ h => nomatch h
  | succ fuel ih =>
    exact ⟨ih.parseOr, ih.parseOrRest, ih.parseAnd, ih.parseAndRest, ih.parseUnary,
      ih.parsePrimary⟩

/-! ## What is spelled is read -/

/-- What reading does with tokens that are spelled, whatever comes after them.  A row of
operands is read up to where the loop over the operators looks for the next one, which is
where more of the row may follow. -/
def Read (e : Expression) (ts : List Token) : Level → Prop
  | .disjunction => ∀ fuel tail last, 4 * ts.length + 2 ≤ fuel →
      (Cursor.mk tail last).current.kind ≠ .and →
      ∃ e' fuel', e'.collapse = e ∧ fuel ≤ fuel' + ts.length ∧
        parseOr fuel ⟨ts ++ tail, last⟩ = parseOrRest fuel' e' ⟨tail, last⟩
  | .conjunction => ∀ fuel tail last, 4 * ts.length + 1 ≤ fuel →
      ∃ e' fuel', e'.collapse = e ∧ fuel ≤ fuel' + ts.length ∧
        parseAnd fuel ⟨ts ++ tail, last⟩ = parseAndRest fuel' e' ⟨tail, last⟩
  | .unary => ∀ fuel tail last, 4 * ts.length ≤ fuel →
      ∃ e', e'.collapse = e ∧ parseUnary fuel ⟨ts ++ tail, last⟩ = .ok (e', ⟨tail, last⟩)
  | .primary => ∀ fuel tail last, 4 * ts.length ≤ fuel + 1 →
      ∃ e', e'.collapse = e ∧ parsePrimary fuel ⟨ts ++ tail, last⟩ = .ok (e', ⟨tail, last⟩)

/-- A disjunction ends where no OR follows. -/
theorem parseOrRest_done (fuel : Nat) (h : c.current.kind ≠ .or) :
    parseOrRest (fuel + 1) e c = .ok (e, c) := by
  rw [parseOrRest, if_neg h]

/-- A conjunction ends where no AND follows. -/
theorem parseAndRest_done (fuel : Nat) (h : c.current.kind ≠ .and) :
    parseAndRest (fuel + 1) e c = .ok (e, c) := by
  rw [parseAndRest, if_neg h]

/-- A filter splits between its tag and its pattern. -/
theorem splitAtFirst_filter {tagName : String} (htag : Text.asciiLower tagName = tag.name)
    (pattern : String) :
    Text.splitAtFirst ':' (tagName ++ ":" ++ pattern) = some (tagName, pattern) :=
  Text.splitAtFirst_eq_some_iff.2 ⟨by simp, Tag.colon_not_mem htag⟩

namespace Read

variable {ts ts' : List Token} {t t' : Token} {right : Expression}

/-- A conjunction is read as a disjunction of one operand. -/
theorem ofConjunction (h : Read e ts .conjunction) (hne : ts ≠ []) : Read e ts .disjunction := by
  intro fuel tail last hfuel hnext
  have hlen := List.length_pos_iff.2 hne
  obtain ⟨fuel, rfl⟩ : ∃ n, fuel = n + 1 := ⟨fuel - 1, by omega⟩
  obtain ⟨e', fuel', he', hle, hread⟩ := h fuel tail last (by omega)
  obtain ⟨n, rfl⟩ : ∃ n, fuel' = n + 1 := ⟨fuel' - 1, by omega⟩
  refine ⟨e', fuel, he', by omega, ?_⟩
  rw [parseOr, hread, parseAndRest_done n hnext]

/-- A disjunction is read as its last operand after those before it. -/
theorem either (hl : Read left ts .disjunction) (ht : t.kind = .or)
    (hr : Read right ts' .conjunction) :
    Read (.either left right) (ts ++ t :: ts') .disjunction := by
  intro fuel tail last hfuel hnext
  rw [List.length_append, List.length_cons] at hfuel
  obtain ⟨l', fuel', hl', hle, hread⟩ := hl fuel (t :: (ts' ++ tail)) last
    (by omega) (by simp [ht])
  obtain ⟨n, rfl⟩ : ∃ n, fuel' = n + 1 := ⟨fuel' - 1, by omega⟩
  obtain ⟨r', fuel'', hr', hle', hread'⟩ := hr n tail last (by omega)
  obtain ⟨m, rfl⟩ : ∃ m, fuel'' = m + 1 := ⟨fuel'' - 1, by omega⟩
  refine ⟨.either l' r', n, by rw [Expression.collapse, hl', hr'], ?_, ?_⟩
  · rw [List.length_append, List.length_cons]
    omega
  · rw [List.append_assoc, List.cons_append, hread, parseOrRest, Cursor.current_cons,
      if_pos ht, Cursor.advance_cons, hread', parseAndRest_done m hnext]

/-- An operand is read as a conjunction of one. -/
theorem ofUnary (h : Read e ts .unary) (hne : ts ≠ []) : Read e ts .conjunction := by
  intro fuel tail last hfuel
  have hlen := List.length_pos_iff.2 hne
  obtain ⟨fuel, rfl⟩ : ∃ n, fuel = n + 1 := ⟨fuel - 1, by omega⟩
  obtain ⟨e', he', hread⟩ := h fuel tail last (by omega)
  refine ⟨e', fuel, he', by omega, ?_⟩
  rw [parseAnd, hread]

/-- A conjunction is read as its last operand after those before it. -/
theorem both (hl : Read left ts .conjunction) (ht : t.kind = .and)
    (hr : Read right ts' .unary) : Read (.both left right) (ts ++ t :: ts') .conjunction := by
  intro fuel tail last hfuel
  rw [List.length_append, List.length_cons] at hfuel
  obtain ⟨l', fuel', hl', hle, hread⟩ := hl fuel (t :: (ts' ++ tail)) last
    (by omega)
  obtain ⟨n, rfl⟩ : ∃ n, fuel' = n + 1 := ⟨fuel' - 1, by omega⟩
  obtain ⟨r', hr', hread'⟩ := hr n tail last (by omega)
  refine ⟨.both l' r', n, by rw [Expression.collapse, hl', hr'], ?_, ?_⟩
  · rw [List.length_append, List.length_cons]
    omega
  · rw [List.append_assoc, List.cons_append, hread, parseAndRest, Cursor.current_cons,
      if_pos ht, Cursor.advance_cons, hread']

/-- NOT is read with the operand after it. -/
theorem complement (ht : t.kind = .not) (h : Read e ts .unary) :
    Read (.complement e) (t :: ts) .unary := by
  intro fuel tail last hfuel
  rw [List.length_cons] at hfuel
  obtain ⟨fuel, rfl⟩ : ∃ n, fuel = n + 1 := ⟨fuel - 1, by omega⟩
  obtain ⟨e', he', hread⟩ := h fuel tail last (by omega)
  refine ⟨.complement e', by rw [Expression.collapse, he'], ?_⟩
  rw [List.cons_append, parseUnary, Cursor.current_cons, if_pos ht, Cursor.advance_cons, hread]

/-- A primary does not begin with `NOT`. -/
theorem ofPrimary (h : Read e (t :: ts) .primary) (ht : t.kind ≠ .not) :
    Read e (t :: ts) .unary := by
  intro fuel tail last hfuel
  obtain ⟨fuel, rfl⟩ : ∃ n, fuel = n + 1 := ⟨fuel - 1, by rw [List.length_cons] at hfuel; omega⟩
  obtain ⟨e', he', hread⟩ := h fuel tail last (by omega)
  refine ⟨e', he', ?_⟩
  rw [List.cons_append, parseUnary, Cursor.current_cons, if_neg ht, ← List.cons_append, hread]

/-- A group is read as what it holds. -/
theorem group (ht : t.kind = .opening) (h : Read e ts .disjunction) (ht' : t'.kind = .closing) :
    Read e (t :: (ts ++ [t'])) .primary := by
  intro fuel tail last hfuel
  simp only [List.length_cons, List.length_append, List.length_nil] at hfuel
  obtain ⟨fuel, rfl⟩ : ∃ n, fuel = n + 1 := ⟨fuel - 1, by omega⟩
  obtain ⟨e', fuel', he', hle, hread⟩ := h fuel (t' :: tail) last (by omega) (by simp [ht'])
  obtain ⟨n, rfl⟩ : ∃ n, fuel' = n + 1 := ⟨fuel' - 1, by omega⟩
  refine ⟨.group e', by rw [Expression.collapse, he'], ?_⟩
  rw [List.cons_append, List.append_assoc, List.singleton_append, parsePrimary]
  simp only [Cursor.current_cons, Cursor.advance_cons, ht]
  rw [hread, parseOrRest_done n (by simp [ht'])]
  simp only [closeGroup, Cursor.current_cons, ht', if_true, Cursor.advance_cons]

/-- A quoted text is read as a name. -/
theorem quotedName {name : String} (ht : t.kind = .quoted name) :
    Read (.ref name) [t] .primary := by
  intro fuel tail last hfuel
  obtain ⟨fuel, rfl⟩ : ∃ n, fuel = n + 1 := ⟨fuel - 1, by simp at hfuel; omega⟩
  refine ⟨.ref name, rfl, ?_⟩
  rw [List.singleton_append, parsePrimary]
  simp only [Cursor.current_cons, ht, Cursor.advance_cons]

/-- A word is read as its operand, from the tokens after it. -/
theorem word {word : String} (ht : t.kind = .word word) (he : e.collapse = e)
    (h : ∀ position tail last,
      wordOperand position word ⟨ts ++ tail, last⟩ = .ok (e, ⟨tail, last⟩)) :
    Read e (t :: ts) .primary := by
  intro fuel tail last hfuel
  obtain ⟨fuel, rfl⟩ : ∃ n, fuel = n + 1 := ⟨fuel - 1, by simp at hfuel; omega⟩
  refine ⟨e, he, ?_⟩
  rw [List.cons_append, parsePrimary]
  simp only [Cursor.current_cons, ht, Cursor.advance_cons]
  exact h _ _ _

/-- A word without a colon is read as a name. -/
theorem name {name : String} (ht : t.kind = .word name) (hcolon : ':' ∉ name.toList) :
    Read (.ref name) [t] .primary := by
  refine word ht rfl fun position tail last => ?_
  rw [wordOperand, Text.splitAtFirst_eq_none_iff.2 hcolon, List.nil_append]

/-- A word of a tag, a colon and a pattern is read as a filter. -/
theorem filter {tagName pattern : String} (ht : t.kind = .word (tagName ++ ":" ++ pattern))
    (htag : Text.asciiLower tagName = tag.name) (hne : pattern ≠ "") :
    Read (.filter tag pattern) [t] .primary := by
  refine word ht rfl fun position tail last => ?_
  have hsplit := splitAtFirst_filter htag pattern
  rw [wordOperand, hsplit]
  simp [Tag.ofName?_eq_some_iff.2 htag, hne]

/-- A word of a tag and a colon is read as a filter with the quoted text after it. -/
theorem quotedFilter {tagName pattern : String} (ht : t.kind = .word (tagName ++ ":"))
    (ht' : t'.kind = .quoted pattern) (htag : Text.asciiLower tagName = tag.name) :
    Read (.filter tag pattern) [t, t'] .primary := by
  refine word ht rfl fun position tail last => ?_
  have hsplit := splitAtFirst_filter htag ""
  rw [String.append_empty] at hsplit
  rw [wordOperand, hsplit]
  simp [Tag.ofName?_eq_some_iff.2 htag, quotedPattern, ht']

end Read

/-- **What is spelled is read.** -/
theorem read_of_derives {ks : List TokenKind} (h : Derives level ks e) :
    ∀ {ts : List Token}, ts.map Token.kind = ks → Read e ts level := by
  induction h with
  | ofConjunction h ih =>
    rintro ts rfl
    exact (ih rfl).ofConjunction fun hnil => h.ne_nil (by rw [hnil]; rfl)
  | ofUnary h ih =>
    rintro ts rfl
    exact (ih rfl).ofUnary fun hnil => h.ne_nil (by rw [hnil]; rfl)
  | ofPrimary h ih =>
    rintro (_ | ⟨t, ts⟩) rfl
    · exact absurd rfl h.ne_nil
    · exact (ih rfl).ofPrimary h.head_ne_not
  | either _ _ ihl ihr =>
    intro ts hts
    obtain ⟨ts₁, _, rfl, hts₁, hrest⟩ := List.map_eq_append_iff.1 hts
    obtain ⟨t, ts₂, rfl, ht, hts₂⟩ := List.map_eq_cons_iff.1 hrest
    exact (ihl hts₁).either ht (ihr hts₂)
  | both _ _ ihl ihr =>
    intro ts hts
    obtain ⟨ts₁, _, rfl, hts₁, hrest⟩ := List.map_eq_append_iff.1 hts
    obtain ⟨t, ts₂, rfl, ht, hts₂⟩ := List.map_eq_cons_iff.1 hrest
    exact (ihl hts₁).both ht (ihr hts₂)
  | complement _ ih =>
    intro ts hts
    obtain ⟨t, ts₁, rfl, ht, hts₁⟩ := List.map_eq_cons_iff.1 hts
    exact .complement ht (ih hts₁)
  | group _ ih =>
    intro ts hts
    obtain ⟨t, _, rfl, ht, hrest⟩ := List.map_eq_cons_iff.1 hts
    obtain ⟨ts₁, _, rfl, hts₁, hrest⟩ := List.map_eq_append_iff.1 hrest
    obtain ⟨t', _, rfl, ht', hnil⟩ := List.map_eq_cons_iff.1 hrest
    obtain rfl := List.map_eq_nil_iff.1 hnil
    exact .group ht (ih hts₁) ht'
  | name hcolon =>
    intro ts hts
    obtain ⟨t, rfl, ht⟩ := List.map_eq_singleton_iff.1 hts
    exact .name ht hcolon
  | quotedName =>
    intro ts hts
    obtain ⟨t, rfl, ht⟩ := List.map_eq_singleton_iff.1 hts
    exact .quotedName ht
  | filter htag hne =>
    intro ts hts
    obtain ⟨t, rfl, ht⟩ := List.map_eq_singleton_iff.1 hts
    exact .filter ht htag hne
  | quotedFilter htag =>
    intro ts hts
    obtain ⟨t, _, rfl, ht, hrest⟩ := List.map_eq_cons_iff.1 hts
    obtain ⟨t', rfl, ht'⟩ := List.map_eq_singleton_iff.1 hrest
    exact .quotedFilter ht ht' htag

end Parser

/-! ## Whole lists of tokens -/

section Tokens

variable {body : List Token} {last : Token} {e : Expression}

/-- Tokens that spell an expression are read as it, up to a token that does not go on with
it. -/
theorem parseWithin_of_spells (h : Spells (body.map Token.kind) e) {next : Token}
    (hor : next.kind ≠ .or) (hand : next.kind ≠ .and) (after : List Token) :
    ∃ e' c, e'.collapse = e ∧ Parser.Cursor.current c = next ∧
      Parser.parseWithin (Parser.fuelFor (body ++ next :: after)) (body ++ next :: after) =
        Parser.finish e' c := by
  have hread : Parser.Read e body .disjunction := Parser.read_of_derives h rfl
  let last := (body ++ next :: after).getLastD Parser.endToken
  obtain ⟨e', fuel, he', hle, hread⟩ := hread (Parser.fuelFor (body ++ next :: after))
    (next :: after) last (by simp [Parser.fuelFor]; omega) hand
  obtain ⟨n, rfl⟩ : ∃ n, fuel = n + 1 := by
    refine ⟨fuel - 1, ?_⟩
    simp [Parser.fuelFor] at hle
    omega
  have hdone := Parser.parseOrRest_done (e := e') (c := ⟨next :: after, last⟩) n hor
  exact ⟨e', ⟨next :: after, last⟩, he', rfl, by
    rw [Parser.parseWithin, Parser.Cursor.ofTokens, hread, hdone]⟩

/-- Tokens that spell an expression are read as it, up to their end. -/
theorem parseTokens_of_spells (hlast : last.kind = .finish) (h : Spells (body.map Token.kind) e) :
    parseTokens (body ++ [last]) = .ok e := by
  have hor : last.kind ≠ .or := by simp [hlast]
  have hand : last.kind ≠ .and := by simp [hlast]
  obtain ⟨e', c, rfl, hc, hwithin⟩ := parseWithin_of_spells h hor hand []
  rw [parseTokens, hwithin]
  simp [Parser.finish, hc, hlast]

/-- Where reading ends is the end of the expression. -/
theorem finish_eq_ok_iff {e' : Expression} {c : Parser.Cursor} :
    Parser.finish e' c = .ok e ↔ c.current.kind = .finish ∧ e'.collapse = e := by
  unfold Parser.finish
  split <;> simp_all

/-- What it takes to read a list of tokens. -/
theorem of_parseTokens_ok {tokens : List Token} (h : parseTokens tokens = .ok e) :
    ∃ e' c', Parser.parseOr (Parser.fuelFor tokens) (.ofTokens tokens) = .ok (e', c') ∧
      Parser.finish e' c' = .ok e := by
  rw [parseTokens, Parser.parseWithin] at h
  cases hor : Parser.parseOr (Parser.fuelFor tokens) (.ofTokens tokens) with
  | error stop =>
    rw [hor] at h
    cases stop <;> cases h
  | ok read =>
    obtain ⟨e', c'⟩ := read
    rw [hor] at h
    dsimp only at h
    cases hfinish : Parser.finish e' c' with
    | error stop =>
      rw [hfinish] at h
      cases stop <;> cases h
    | ok found =>
      rw [hfinish] at h
      obtain rfl := Except.ok.inj h
      exact ⟨e', c', rfl, hfinish⟩

/-- What tokens are read as, up to their only end token, they spell. -/
theorem spells_of_parseTokens (hbody : ∀ t ∈ body, t.kind ≠ .finish) (hlast : last.kind = .finish)
    (h : parseTokens (body ++ [last]) = .ok e) : Spells (body.map Token.kind) e := by
  obtain ⟨e', c', hor, hfinish⟩ := of_parseTokens_ok h
  rw [Parser.Cursor.ofTokens, List.getLastD_concat] at hor
  obtain ⟨hend, rfl⟩ := finish_eq_ok_iff.1 hfinish
  obtain ⟨ts, hrest, -, hderives⟩ := (Parser.sound _).or hlast hor
  have hts : ∀ t ∈ ts, t.kind ≠ .finish := fun t ht hkind =>
    hderives.finish_not_mem (hkind ▸ List.mem_map_of_mem ht)
  -- The end token is the first one left, and as the only one it is the last.
  obtain hnil | ⟨left, t, hleft⟩ := List.eq_nil_or_concat' c'.rest
  · rw [hnil, List.append_nil] at hrest
    exact absurd hlast (hts last (hrest ▸ List.mem_append_right _ List.mem_cons_self))
  · rw [hleft, ← List.append_assoc] at hrest
    obtain ⟨rfl, -⟩ := List.append_inj' hrest rfl
    cases left with
    | nil => rwa [List.append_nil]
    | cons t' left =>
      have hkind : t'.kind = .finish := by
        rw [Parser.Cursor.current, hleft] at hend
        exact hend
      exact absurd hkind (hbody t' (by simp))

/-- **The tokens before the end are read as what they spell, and as nothing else.**  Two
readings of them are the same, none has a group, and none is of tokens in which an operand
stands right after another. -/
theorem parseTokens_eq_ok_iff_spells (hbody : ∀ t ∈ body, t.kind ≠ .finish)
    (hlast : last.kind = .finish) :
    (∀ e, parseTokens (body ++ [last]) = .ok e ↔ Spells (body.map Token.kind) e) ∧
    (∀ e e', Spells (body.map Token.kind) e → Spells (body.map Token.kind) e' → e = e') ∧
    (∀ e, Spells (body.map Token.kind) e → e.groupless = true) ∧
    (¬(body.map Token.kind).IsChain KeptApart →
      ∃ err, parseTokens (body ++ [last]) = .error err) := by
  have hsound : ∀ e, parseTokens (body ++ [last]) = .ok e → Spells (body.map Token.kind) e :=
    fun e h => spells_of_parseTokens hbody hlast h
  refine ⟨fun e => ⟨hsound e, parseTokens_of_spells hlast⟩, fun e e' h h' => ?_,
    fun e h => h.groupless_eq, fun hnext => ?_⟩
  · have hread := parseTokens_of_spells hlast h
    exact Except.ok.inj (hread.symm.trans (parseTokens_of_spells hlast h'))
  · cases hread : parseTokens (body ++ [last]) with
    | error err => exact ⟨err, rfl⟩
    | ok e => exact absurd (hsound e hread).keptApart hnext

/-- `rock AND NOT "live"`, and what is read when the operator is missing. -/
theorem parseTokens_rock_not_live :
    parseTokens ([⟨.word "rock", "rock", 0⟩, ⟨.and, "AND", 5⟩, ⟨.not, "NOT", 9⟩,
        ⟨.quoted "live", "\"live\"", 13⟩] ++ [⟨.finish, "", 19⟩]) =
      .ok (.both (.ref "rock") (.complement (.ref "live"))) ∧
    ∃ err, parseTokens ([⟨.word "rock", "rock", 0⟩, ⟨.quoted "live", "\"live\"", 5⟩] ++
      [⟨.finish, "", 11⟩]) = .error err := by
  constructor
  · have hrock : Derives .conjunction [.word "rock"] (.ref "rock") :=
      .ofUnary (.ofPrimary (.name (by decide)))
    have hlive : Derives .unary [.not, .quoted "live"] (.complement (.ref "live")) :=
      .complement (.ofPrimary .quotedName)
    exact ((parseTokens_eq_ok_iff_spells (by decide) rfl).1 _).2
      (.ofConjunction (.both hrock hlive))
  · have hnext : ¬[TokenKind.word "rock", .quoted "live"].IsChain KeptApart := by
      intro hchain
      refine List.isChain_pair.1 hchain ?_ trivial
      rintro ⟨tagName, hword, -⟩
      have hcolon : ':' ∈ "rock".toList := hword ▸ by simp
      exact absurd hcolon (by decide)
    exact (parseTokens_eq_ok_iff_spells (by decide) rfl).2.2.2 hnext

end Tokens

end MusicCollections

/-
# Where reading tokens ends

A list of tokens need not end in an end token.  Past its end the last token is read over and
over, and the cursor stands still, so the tokens that are left are no measure there.  What ends
the reading is the last token itself: unless it is NOT or an opening parenthesis, it is read
as an operand once, or as the end of one, or nothing can be read at it.

So for any number of tokens left there are steps enough to read each level (`settles_parseOr`),
by a row of operands that ends at the first token that is not its operator, and a row whose
operator is the last token fails at it (`settles_rest`).  With as many steps or more, reading
comes to the same end, and without an end token that is an error (`parseTokens_ends`).
-/

import MusicCollections.Proofs.Expression.Citations
import MusicCollections.Proofs.Expression.Reading

namespace MusicCollections
namespace Parser

variable {last : Token} {m n k bound bound' : Nat} {c : Cursor} {e left : Expression}
  {after mid : Cursor → Prop} {step : Step} {read read' : Nat → Step} {operator : TokenKind}

/-! ## Tokens that are left -/

/-- At most `n` tokens are left before `last` is read over and over. -/
structure Left (last : Token) (n : Nat) (c : Cursor) : Prop where
  last_eq : c.last = last
  length_le : c.rest.length ≤ n

namespace Left

/-- More tokens may be left than there are. -/
theorem mono (h : Left last m c) (hle : m ≤ n) : Left last n c :=
  ⟨h.last_eq, h.length_le.trans hle⟩

/-- Moving the cursor takes one token away, as long as there is one. -/
theorem advance (h : Left last n c) : Left last (n - 1) c.advance where
  last_eq := h.last_eq
  length_le := by
    have hle := h.length_le
    rw [Cursor.advance, List.length_tail]
    omega

/-- With nothing left, the cursor stands on the last token. -/
theorem current_eq (h : Left last 0 c) : c.current = last := by
  have hnil := List.length_eq_zero_iff.1 (Nat.le_zero.1 h.length_le)
  rw [Cursor.current, hnil, List.headD_nil, h.last_eq]

/-- A token that is not the last one is not read past the end. -/
theorem pos (h : Left last n c) (hne : c.current.kind ≠ last.kind) : 0 < n := by
  rw [Nat.pos_iff_ne_zero]
  rintro rfl
  exact hne (congrArg Token.kind h.current_eq)

end Left

/-! ## Steps enough -/

/-- Goes on after an expression. -/
def goOn (step : Step) (next : Expression → Cursor → Step) : Step :=
  match step with
  | .error stop => .error stop
  | .ok (e, c) => next e c

/-- The step came to an end, and after an expression the cursor is as said. -/
def Concludes (after : Cursor → Prop) : Step → Prop
  | .ok (_, c) => after c
  | .error (.fault _) => True
  | .error .outOfFuel => False

/-- A step that concludes gives an expression or a fault, and never runs out of steps. -/
theorem Concludes.cases (h : Concludes after step) :
    (∃ e c, step = .ok (e, c) ∧ after c) ∨ ∃ err, step = .error (.fault err) := by
  cases step with
  | ok result => exact .inl ⟨result.1, result.2, rfl, h⟩
  | error stop =>
    cases stop with
    | fault err => exact .inr ⟨err, rfl⟩
    | outOfFuel => exact h.elim

/-- Within `bound` steps reading comes to an end, and with more of them to the same. -/
def Settles (after : Cursor → Prop) (bound : Nat) (read : Nat → Step) : Prop :=
  ∃ step, Concludes after step ∧ ∀ fuel, bound ≤ fuel → read fuel = step

namespace Settles

/-- What needs no steps settles at once. -/
theorem const (step : Step) (h : Concludes after step) : Settles after 0 fun _ => step :=
  ⟨step, h, fun _ _ => rfl⟩

/-- What holds after a step may be weakened. -/
theorem imp (h : Settles mid bound read) (hafter : ∀ c, mid c → after c) :
    Settles after bound read := by
  obtain ⟨step, hstep, hread⟩ := h
  obtain ⟨e, c, rfl, hc⟩ | ⟨err, rfl⟩ := hstep.cases
  · exact ⟨.ok (e, c), hafter c hc, hread⟩
  · exact ⟨.error (.fault err), trivial, hread⟩

/-- One step more, before reading goes on as said. -/
theorem next (h : Settles after bound read) (hread : ∀ fuel, read' (fuel + 1) = read fuel)
    (hle : bound + 1 ≤ bound') : Settles after bound' read' := by
  obtain ⟨step, hstep, heq⟩ := h
  refine ⟨step, hstep, fun fuel hfuel => ?_⟩
  obtain ⟨fuel, rfl⟩ : ∃ n, fuel = n + 1 := ⟨fuel - 1, by omega⟩
  rw [hread, heq fuel (by omega)]

/-- Two steps, one after the other, settle within the greater of their bounds. -/
theorem andThen (next : Nat → Expression → Cursor → Step) (h : Settles mid bound read)
    (hnext : ∀ e c, mid c → Settles after bound' (next · e c)) :
    Settles after (max bound bound') fun fuel => goOn (read fuel) (next fuel) := by
  obtain ⟨step, hstep, hread⟩ := h
  obtain ⟨e, c, rfl, hc⟩ | ⟨err, rfl⟩ := hstep.cases
  · obtain ⟨step, hstep, heq⟩ := hnext e c hc
    refine ⟨step, hstep, fun fuel hfuel => ?_⟩
    dsimp only
    rw [hread fuel (by omega)]
    exact heq fuel (by omega)
  · refine ⟨.error (.fault err), trivial, fun fuel hfuel => ?_⟩
    dsimp only
    rw [hread fuel (by omega)]
    rfl

/-- Where no expression can be read, nothing goes on. -/
theorem andThen_of_fails (next : Nat → Expression → Cursor → Step)
    (h : Settles (fun _ => False) bound read) :
    Settles after bound fun fuel => goOn (read fuel) (next fuel) := by
  have hnone : ∀ e c, False → Settles after 0 (next · e c) := fun _ _ h => h.elim
  simpa using h.andThen next hnone

end Settles

/-! ## Rows of operands -/

/-- How a row of operands is read: one operand, and another one after each operator. -/
structure ReadsRow (operator : TokenKind) (join : Expression → Expression → Expression)
    (operand row : Nat → Cursor → Step) (rest : Nat → Expression → Cursor → Step) : Prop where
  row_eq : ∀ fuel c, row (fuel + 1) c = goOn (operand fuel c) (rest fuel)
  rest_eq : ∀ fuel left c, rest (fuel + 1) left c =
    if c.current.kind = operator then
      goOn (operand fuel c.advance) fun right => rest fuel (join left right)
    else .ok (left, c)

/-- Conjunctions are rows of operands. -/
theorem readsRow_conjunction : ReadsRow .and .both parseUnary parseAnd parseAndRest where
  row_eq fuel c := by
    rw [parseAnd]
    rfl
  rest_eq fuel left c := by
    rw [parseAndRest]
    rfl

/-- Disjunctions are rows of conjunctions. -/
theorem readsRow_disjunction : ReadsRow .or .either parseAnd parseOr parseOrRest where
  row_eq fuel c := by
    rw [parseOr]
    rfl
  rest_eq fuel left c := by
    rw [parseOrRest]
    rfl

section Row

variable {join : Expression → Expression → Expression} {operand row : Nat → Cursor → Step}
  {rest : Nat → Expression → Cursor → Step}

/-- Without an operator next, the row is at its end. -/
theorem ReadsRow.settles_done (hrow : ReadsRow operator join operand row rest)
    (hkind : c.current.kind ≠ operator) (hc : Left last n c) :
    Settles (Left last n) (4 * n + k + 1) (rest · left c) :=
  (Settles.const (.ok (left, c)) hc).next
    (fun fuel => by rw [hrow.rest_eq, if_neg hkind]) (Nat.le_add_left 1 _)

/-- **A row ends.**  Each operand takes a token off, and when none is left a row whose operator
is read over and over fails, since no operand begins with it. -/
theorem settles_rest (hrow : ReadsRow operator join operand row rest)
    (hoperator : ∀ c, c.current.kind = operator → Settles (fun _ => False) k (operand · c))
    (hoperand : ∀ m < n, ∀ c, Left last m c →
      Settles (Left last (m - 1)) (4 * m + k + 2) (operand · c))
    (left : Expression) (hc : Left last n c) :
    Settles (Left last n) (4 * n + k + 1) (rest · left c) := by
  induction n generalizing left c with
  | zero =>
    by_cases hkind : c.current.kind = operator
    · -- The cursor stands still, so the operator is read again in the place of its operand.
      have hstill : c.advance.current.kind = operator := by
        rw [hc.advance.current_eq, ← hc.current_eq, hkind]
      refine ((hoperator _ hstill).andThen_of_fails
        fun fuel right => rest fuel (join left right)).next (fun fuel => ?_) (by omega)
      rw [hrow.rest_eq, if_pos hkind]
    · exact hrow.settles_done hkind hc
  | succ n ih =>
    by_cases hkind : c.current.kind = operator
    · have hmore : ∀ right c', Left last (n - 1) c' →
          Settles (Left last n) (4 * n + k + 1) (rest · (join left right) c') := fun right c' hc' =>
        ih (fun m hm => hoperand m (by omega)) (join left right) (hc'.mono (by omega))
      have hreads := (hoperand n (Nat.lt_succ_self n) c.advance hc.advance).andThen
        (fun fuel right => rest fuel (join left right)) hmore
      exact (hreads.next (fun fuel => by rw [hrow.rest_eq, if_pos hkind]) (by omega)).imp
        fun c' hc' => hc'.mono (Nat.le_succ n)
    · exact hrow.settles_done hkind hc

/-- **A row settles if its operands do,** provided that no operand begins with the operator. -/
theorem settles_row (hrow : ReadsRow operator join operand row rest)
    (hoperator : ∀ c, c.current.kind = operator → Settles (fun _ => False) k (operand · c))
    (hoperand : ∀ m ≤ n, ∀ c, Left last m c →
      Settles (Left last (m - 1)) (4 * m + k + 2) (operand · c))
    (hc : Left last n c) : Settles (Left last (n - 1)) (4 * n + k + 3) (row · c) := by
  have hreads := (hoperand n le_rfl c hc).andThen rest fun left c' hc' =>
    settles_rest hrow hoperator (fun m hm => hoperand m (by omega)) left hc'
  exact hreads.next (fun fuel => hrow.row_eq fuel c) (by omega)

end Row

/-! ## Operands -/

/-- No operand begins with an operator between two. -/
theorem settles_unary_of_operator (h : c.current.kind = .and ∨ c.current.kind = .or) :
    Settles after 2 (parseUnary · c) := by
  have hprimary : Settles after 1 (parsePrimary · c) :=
    (Settles.const (.error (unexpected c.current expectedOperand)) trivial).next
      (fun fuel => by rw [parsePrimary]; rcases h with h | h <;> simp only [h]) le_rfl
  have hnot : c.current.kind ≠ .not := by
    rcases h with h | h <;> simp [h]
  exact hprimary.next (fun fuel => by rw [parseUnary, if_neg hnot]) le_rfl

/-- No conjunction begins with OR. -/
theorem settles_conjunction_of_operator (h : c.current.kind = .or) :
    Settles (fun _ => False) 3 (parseAnd · c) := by
  have hfails : Settles (fun _ => False) 2 (parseUnary · c) := settles_unary_of_operator (.inr h)
  exact (hfails.andThen_of_fails parseAndRest).next
    (fun fuel => readsRow_conjunction.row_eq fuel c) le_rfl

/-- Reading a word concludes. -/
theorem concludes_wordOperand (hc : Left last n c) (position : Nat) (word : String) :
    Concludes (Left last n) (wordOperand position word c) := by
  unfold wordOperand
  split
  · exact hc
  · split
    · trivial
    · split
      · unfold quotedPattern
        split
        · exact hc.advance.mono (Nat.sub_le n 1)
        · trivial
      · exact hc

/-- Closing a group concludes. -/
theorem concludes_closeGroup (hc : Left last n c) (e : Expression) :
    Concludes (Left last n) (closeGroup e c) := by
  unfold closeGroup
  split
  · exact hc.advance.mono (Nat.sub_le n 1)
  · trivial

/-! ## The levels

Four levels lie between a token and the next one: with `n` tokens left, a primary is read within
`4 * n + 3` steps, and each looser level takes one step more. -/

section Levels

variable (hnot : last.kind ≠ .not) (hopening : last.kind ≠ .opening)
  (hor : ∀ m < n, ∀ c, Left last m c → Settles (Left last (m - 1)) (4 * m + 6) (parseOr · c))

include hopening hor

/-- An operand settles, and leaves a token fewer than there were. -/
theorem settles_primary (hc : Left last n c) :
    Settles (Left last (n - 1)) (4 * n + 3) (parsePrimary · c) := by
  cases hkind : c.current.kind with
  | opening =>
    -- The last token is none, so there is one token less for what the group holds.
    have hpos := hc.pos (by rw [hkind]; exact hopening.symm)
    have hgroup := (hor (n - 1) (by omega) c.advance hc.advance).andThen
      (fun _ => closeGroup) fun e c' hc' =>
        .const _ (concludes_closeGroup (hc'.mono (Nat.sub_le (n - 1) 1)) e)
    exact hgroup.next (fun fuel => by rw [parsePrimary]; simp only [hkind]; rfl) (by omega)
  | quoted name =>
    exact (Settles.const (.ok (.ref name, c.advance)) hc.advance).next
      (fun fuel => by rw [parsePrimary]; simp only [hkind]) (by omega)
  | word word =>
    exact (Settles.const _ (concludes_wordOperand hc.advance c.current.position word)).next
      (fun fuel => by rw [parsePrimary]; simp only [hkind]) (by omega)
  | and | or | not | closing | finish =>
    exact (Settles.const (.error (unexpected c.current expectedOperand)) trivial).next
      (fun fuel => by rw [parsePrimary]; simp only [hkind]) (by omega)

include hnot

/-- An operand with NOT before it settles, and leaves a token fewer than there were. -/
theorem settles_unary (hc : Left last n c) :
    Settles (Left last (n - 1)) (4 * n + 4) (parseUnary · c) := by
  induction n generalizing c with
  | zero =>
    have hfirst : c.current.kind ≠ .not := by rwa [hc.current_eq]
    exact (settles_primary hopening hor hc).next
      (fun fuel => by rw [parseUnary, if_neg hfirst]) (by omega)
  | succ n ih =>
    by_cases hfirst : c.current.kind = .not
    · have hreads := (ih (fun m hm => hor m (by omega)) hc.advance).andThen
        (fun _ e c' => .ok (.complement e, c')) fun e c' hc' =>
          .const (.ok (.complement e, c')) (hc'.mono (Nat.sub_le n 1))
      exact hreads.next (fun fuel => by rw [parseUnary, if_pos hfirst]; rfl) (by omega)
    · exact (settles_primary hopening hor hc).next
        (fun fuel => by rw [parseUnary, if_neg hfirst]) (by omega)

end Levels

/-- **With four steps for each token that is left reading an expression ends**, unless the last
token is NOT or an opening parenthesis. -/
theorem settles_parseOr (hnot : last.kind ≠ .not) (hopening : last.kind ≠ .opening)
    (hc : Left last n c) : Settles (Left last (n - 1)) (4 * n + 6) (parseOr · c) := by
  induction n using Nat.strong_induction_on generalizing c with
  | _ n ih =>
  have hunary : ∀ m ≤ n, ∀ c, Left last m c →
      Settles (Left last (m - 1)) (4 * m + 2 + 2) (parseUnary · c) := fun m hm c hc =>
    settles_unary hnot hopening (fun m' hlt c hc => ih m' (by omega) hc) hc
  have hand : ∀ m ≤ n, ∀ c, Left last m c →
      Settles (Left last (m - 1)) (4 * m + 3 + 2) (parseAnd · c) := fun m hm c hc =>
    settles_row readsRow_conjunction (fun c h => settles_unary_of_operator (.inl h))
      (fun m' hle => hunary m' (by omega)) hc
  exact settles_row readsRow_disjunction (fun c h => settles_conjunction_of_operator h) hand hc

/-! ## Tokens without an end -/

variable {tokens : List Token} {fuel : Nat}

/-- The end of the tokens gives an answer and never runs out of steps. -/
theorem exists_finish_eq (e : Expression) (c : Cursor) :
    ∃ answer : Except ParseError Expression, finish e c = answer.mapError .fault := by
  unfold finish
  split
  · exact ⟨.ok e.collapse, rfl⟩
  · exact ⟨.error _, rfl⟩
  · exact ⟨.error _, rfl⟩

/-- From the bound on, the number of steps makes no difference. -/
theorem parseWithin_eq
    (hlast : ∀ t ∈ tokens.getLast?, t.kind ≠ .not ∧ t.kind ≠ .opening)
    (hfuel : fuelFor tokens ≤ fuel) :
    parseWithin fuel tokens = (parseTokens tokens).mapError .fault := by
  have hfirm : (tokens.getLastD endToken).kind ≠ .not ∧
      (tokens.getLastD endToken).kind ≠ .opening := by
    rw [List.getLastD_eq_getLast?]
    cases hget : tokens.getLast? with
    | none => decide
    | some t => exact hlast t hget
  obtain ⟨step, hstep, hread⟩ :=
    settles_parseOr hfirm.1 hfirm.2 (c := .ofTokens tokens) ⟨rfl, le_rfl⟩
  obtain ⟨answer, hanswer⟩ : ∃ answer : Except ParseError Expression, ∀ fuel,
      fuelFor tokens ≤ fuel → parseWithin fuel tokens = answer.mapError .fault := by
    have hbound : ∀ fuel, fuelFor tokens ≤ fuel → parseOr fuel (.ofTokens tokens) = step :=
      fun fuel hfuel => hread fuel (by simp only [fuelFor, Cursor.ofTokens] at hfuel ⊢; omega)
    obtain ⟨e, c, rfl, -⟩ | ⟨err, rfl⟩ := hstep.cases
    · obtain ⟨answer, hfinish⟩ := exists_finish_eq e c
      exact ⟨answer, fun fuel hfuel => by rw [parseWithin, hbound fuel hfuel]; exact hfinish⟩
    · exact ⟨.error err, fun fuel hfuel => by rw [parseWithin, hbound fuel hfuel]; rfl⟩
  rw [hanswer fuel hfuel, parseTokens, hanswer _ le_rfl]
  cases answer <;> rfl

/-- The last token is read as the end only if it is one. -/
theorem exists_error_of_endless (hend : ∀ t ∈ tokens, t.kind ≠ .finish) :
    ∃ err, parseTokens tokens = .error err := by
  cases hread : parseTokens tokens with
  | error err => exact ⟨err, rfl⟩
  | ok e =>
    exfalso
    have hne : tokens ≠ [] := by
      rintro rfl
      cases hread
    obtain ⟨e', c, hor, hfinish⟩ := of_parseTokens_ok hread
    have hwithin := (careful tokens (fuelFor tokens)).or (within_ofTokens hne)
    rw [hor] at hwithin
    exact hend _ (Within.current hwithin) (finish_eq_ok_iff.1 hfinish).1

/-- Among tokens that are all NOT or opening parentheses, no number of steps is enough for
any part of an expression. -/
theorem outOfFuel_of_unfinished (h : ∀ t ∈ tokens, t.kind = .not ∨ t.kind = .opening)
    (fuel : Nat) (hc : Within tokens c) :
    parseOr fuel c = .error .outOfFuel ∧ parseAnd fuel c = .error .outOfFuel ∧
      parseUnary fuel c = .error .outOfFuel ∧
      (c.current.kind = .opening → parsePrimary fuel c = .error .outOfFuel) := by
  induction fuel generalizing c with
  | zero => exact ⟨rfl, rfl, rfl, fun _ => rfl⟩
  | succ fuel ih =>
    obtain ⟨-, hand, hunary, hprimary⟩ := ih hc
    obtain ⟨horNext, -, hunaryNext, -⟩ := ih hc.advance
    refine ⟨by rw [parseOr, hand], by rw [parseAnd, hunary], ?_, fun hopening => ?_⟩
    · rcases h _ hc.current with hnot | hopening
      · rw [parseUnary, if_pos hnot, hunaryNext]
      · rw [parseUnary, if_neg (by simp [hopening]), hprimary hopening]
    · rw [parsePrimary]
      simp only [hopening, horNext]

/-- **Tokens that are all NOT or opening parentheses are read to no end** within any number of
steps, since each is read over and over in the hope of an operand. -/
theorem parseWithin_of_unfinished (hne : tokens ≠ [])
    (h : ∀ t ∈ tokens, t.kind = .not ∨ t.kind = .opening) (fuel : Nat) :
    parseWithin fuel tokens = .error .outOfFuel := by
  rw [parseWithin, (outOfFuel_of_unfinished h fuel (within_ofTokens hne)).1]

end Parser

/-- **Tokens are read to an end unless the last one is NOT or an opening parenthesis.**  More
steps than the parser takes change nothing, and without an end token among them the tokens are
an error. -/
theorem parseTokens_ends {tokens : List Token}
    (hlast : ∀ t ∈ tokens.getLast?, t.kind ≠ .not ∧ t.kind ≠ .opening) :
    (∀ fuel, Parser.fuelFor tokens ≤ fuel →
      Parser.parseWithin fuel tokens = (parseTokens tokens).mapError .fault) ∧
    ((∀ t ∈ tokens, t.kind ≠ .finish) → ∃ err, parseTokens tokens = .error err) :=
  ⟨fun _ => Parser.parseWithin_eq hlast, Parser.exists_error_of_endless⟩

/-- `((live)` without an end: its last parenthesis closes both groups, and is then one too
many. -/
theorem parseTokens_ends_reread :
    let tokens : List Token := [⟨.opening, "(", 0⟩, ⟨.opening, "(", 1⟩, ⟨.word "live", "live", 2⟩,
      ⟨.closing, ")", 6⟩]
    (∀ t ∈ tokens.getLast?, t.kind ≠ .not ∧ t.kind ≠ .opening) ∧
      (∀ fuel, 24 ≤ fuel → Parser.parseWithin fuel tokens =
        .error (.fault ⟨6, "matching `(` before `)`", "`)`"⟩)) ∧
      (∀ t ∈ tokens, t.kind ≠ .finish) ∧ ∃ err, parseTokens tokens = .error err := by
  intro tokens
  have hlast : ∀ t ∈ tokens.getLast?, t.kind ≠ .not ∧ t.kind ≠ .opening := by decide
  have hendless : ∀ t ∈ tokens, t.kind ≠ .finish := by decide
  have hreread : parseTokens tokens = .error ⟨6, "matching `(` before `)`", "`)`"⟩ := rfl
  obtain ⟨hends, herror⟩ := parseTokens_ends hlast
  rw [hreread] at hends
  exact ⟨hlast, hends, hendless, herror hendless⟩

end MusicCollections

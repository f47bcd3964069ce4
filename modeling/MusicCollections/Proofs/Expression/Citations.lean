/-
# The token that an error cites

Reading tokens fails at one of them, and the error cites it: its position, and the token as
messages show it, or of a word with an unknown tag only the part before the colon (`Cites`).
Each function of the parser keeps to the tokens that it was given (`Careful`), so this holds
of every list of tokens, whether or not it has an end (`cites_of_parseTokens`).
-/

import MusicCollections.Expression.Parser

namespace MusicCollections

/-- What messages expect where a token is not what may stand there. -/
def Parser.expectations : List String :=
  [expectedOperand, "a pattern after the tag", "`)`", "matching `(` before `)`",
    "AND, OR or end of input"]

/-- The error cites one of the tokens. -/
inductive Cites (tokens : List Token) : ParseError → Prop
  | token {t expected} : t ∈ tokens → expected ∈ Parser.expectations →
      Cites tokens ⟨t.position, expected, t.kind.shown⟩
  | tag {t word tagName pattern} : t ∈ tokens → t.kind = .word word →
      Text.splitAtFirst ':' word = some (tagName, pattern) →
      Cites tokens ⟨t.position, Parser.expectedTag, "`" ++ tagName ++ "`"⟩

namespace Parser

variable {tokens : List Token} {fuel : Nat} {c : Cursor} {e left : Expression}

/-- What the cursor can still read is among the tokens. -/
structure Within (tokens : List Token) (c : Cursor) : Prop where
  rest : ∀ t ∈ c.rest, t ∈ tokens
  last : c.last ∈ tokens

/-- The token under the cursor is one of the tokens, even past their end. -/
theorem Within.current (h : Within tokens c) : c.current ∈ tokens := by
  obtain ⟨rest, last⟩ := c
  cases rest with
  | nil => exact h.last
  | cons t rest => exact h.rest t List.mem_cons_self

/-- Moving the cursor stays within the tokens. -/
theorem Within.advance (h : Within tokens c) : Within tokens c.advance where
  rest t ht := h.rest t (List.mem_of_mem_tail ht)
  last := h.last

/-- A step leaves the cursor within the tokens, or fails with an error that cites one. -/
def Keeps (tokens : List Token) : Step → Prop
  | .ok (_, c) => Within tokens c
  | .error (.fault err) => Cites tokens err
  | .error .outOfFuel => True

/-- Going on from a step keeps to the tokens if every further step does. -/
theorem Keeps.andThen {step : Step} {next : Expression → Cursor → Step} :
    Keeps tokens step → (∀ e c, Within tokens c → Keeps tokens (next e c)) →
      Keeps tokens (match step with
        | .error stop => .error stop
        | .ok (e, c) => next e c) := by
  intro h hnext
  cases step with
  | error => exact h
  | ok read => exact hnext _ _ h

/-- The error of a token that may not stand where it does cites it. -/
theorem keeps_unexpected {t : Token} {expected : String} (ht : t ∈ tokens)
    (hexpected : expected ∈ expectations) :
    Keeps tokens (.error (unexpected t expected)) :=
  Cites.token ht hexpected

/-- Reading a pattern between quotes keeps to the tokens. -/
theorem keeps_quotedPattern (h : Within tokens c) (tag : Tag) :
    Keeps tokens (quotedPattern tag c) := by
  unfold quotedPattern
  split
  · exact h.advance
  · exact keeps_unexpected h.current (by simp [expectations])

/-- Reading a word keeps to the tokens: an unknown tag is cited as the part of the word
before the colon. -/
theorem keeps_wordOperand {t : Token} {word : String} (h : Within tokens c) (ht : t ∈ tokens)
    (hword : t.kind = .word word) : Keeps tokens (wordOperand t.position word c) := by
  unfold wordOperand
  split
  · exact h
  · rename_i tagName pattern hsplit
    split
    · exact Cites.tag ht hword hsplit
    · split
      · exact keeps_quotedPattern h _
      · exact h

/-- Closing a group keeps to the tokens. -/
theorem keeps_closeGroup (h : Within tokens c) (e : Expression) :
    Keeps tokens (closeGroup e c) := by
  unfold closeGroup
  split
  · exact h.advance
  · exact keeps_unexpected h.current (by simp [expectations])

/-- Within `fuel` steps the parser keeps to the tokens. -/
structure Careful (tokens : List Token) (fuel : Nat) : Prop where
  or : ∀ {c}, Within tokens c → Keeps tokens (parseOr fuel c)
  orRest : ∀ {left c}, Within tokens c → Keeps tokens (parseOrRest fuel left c)
  and : ∀ {c}, Within tokens c → Keeps tokens (parseAnd fuel c)
  andRest : ∀ {left c}, Within tokens c → Keeps tokens (parseAndRest fuel left c)
  unary : ∀ {c}, Within tokens c → Keeps tokens (parseUnary fuel c)
  primary : ∀ {c}, Within tokens c → Keeps tokens (parsePrimary fuel c)

namespace Careful

/-- One step of a disjunction is careful if those of its parts are. -/
theorem parseOr (h : Careful tokens fuel) (hc : Within tokens c) :
    Keeps tokens (parseOr (fuel + 1) c) := by
  rw [Parser.parseOr]
  exact (h.and hc).andThen fun _ _ => h.orRest

/-- One step of a conjunction is careful if those of its parts are. -/
theorem parseAnd (h : Careful tokens fuel) (hc : Within tokens c) :
    Keeps tokens (parseAnd (fuel + 1) c) := by
  rw [Parser.parseAnd]
  exact (h.unary hc).andThen fun _ _ => h.andRest

/-- One step of the operands after OR is careful if those of its parts are. -/
theorem parseOrRest (h : Careful tokens fuel) (hc : Within tokens c) :
    Keeps tokens (parseOrRest (fuel + 1) left c) := by
  rw [Parser.parseOrRest]
  split
  · exact (h.and hc.advance).andThen fun _ _ => h.orRest
  · exact hc

/-- One step of the operands after AND is careful if those of its parts are. -/
theorem parseAndRest (h : Careful tokens fuel) (hc : Within tokens c) :
    Keeps tokens (parseAndRest (fuel + 1) left c) := by
  rw [Parser.parseAndRest]
  split
  · exact (h.unary hc.advance).andThen fun _ _ => h.andRest
  · exact hc

/-- One step of an operand with NOT before it is careful if those of its parts are. -/
theorem parseUnary (h : Careful tokens fuel) (hc : Within tokens c) :
    Keeps tokens (parseUnary (fuel + 1) c) := by
  rw [Parser.parseUnary]
  split
  · exact (h.unary hc.advance).andThen fun _ _ hread => hread
  · exact h.primary hc

/-- One step of an operand is careful if that of the group in it is. -/
theorem parsePrimary (h : Careful tokens fuel) (hc : Within tokens c) :
    Keeps tokens (parsePrimary (fuel + 1) c) := by
  rw [Parser.parsePrimary]
  split
  · exact (h.or hc.advance).andThen fun e _ hinner => keeps_closeGroup hinner e
  · exact hc.advance
  · rename_i hword
    exact keeps_wordOperand hc.advance hc.current hword
  · exact keeps_unexpected hc.current (by simp [expectations])

end Careful

/-- **The parser keeps to its tokens,** within any number of steps. -/
theorem careful (tokens : List Token) (fuel : Nat) : Careful tokens fuel := by
  induction fuel with
  | zero => constructor <;> exact fun _ => trivial
  | succ fuel ih =>
    exact ⟨ih.parseOr, ih.parseOrRest, ih.parseAnd, ih.parseAndRest, ih.parseUnary,
      ih.parsePrimary⟩

/-- An expression that is not at the end of the tokens is an error that cites one. -/
theorem cites_of_finish {err : ParseError} (h : Within tokens c)
    (herr : finish e c = .error (.fault err)) : Cites tokens err := by
  unfold finish at herr
  split at herr
  · cases herr
  · cases herr
    exact .token h.current (by simp [expectations])
  · cases herr
    exact .token h.current (by simp [expectations])

/-- A cursor begins within the tokens. -/
theorem within_ofTokens (hne : tokens ≠ []) : Within tokens (.ofTokens tokens) where
  rest _ ht := ht
  last := by
    rw [Cursor.ofTokens, List.getLastD_eq_getLast?, List.getLast?_eq_some_getLast hne]
    exact List.getLast_mem hne

/-- Errors of the parser cite one of the tokens, whatever bound it has. -/
theorem cites_of_parseWithin {err : ParseError} (hne : tokens ≠ [])
    (h : parseWithin fuel tokens = .error (.fault err)) : Cites tokens err := by
  have hkeeps := (careful tokens fuel).or (within_ofTokens hne)
  rw [parseWithin] at h
  split at h
  · rename_i hread
    rw [hread] at hkeeps
    cases h
    exact hkeeps
  · rename_i hread
    rw [hread] at hkeeps
    exact cites_of_finish hkeeps h

end Parser

/-- **An error of reading tokens cites one of them.** -/
theorem cites_of_parseTokens {tokens : List Token} {err : ParseError} (hne : tokens ≠ [])
    (h : parseTokens tokens = .error err) : Cites tokens err := by
  rw [parseTokens] at h
  split at h
  · cases h
  · rename_i hfault
    obtain rfl := Except.error.inj h
    exact Parser.cites_of_parseWithin hne hfault
  · -- The tokens never end, and the last one begins no operand.
    obtain rfl := Except.error.inj h
    exact .token (Parser.within_ofTokens hne).last (by simp [Parser.expectations])

end MusicCollections

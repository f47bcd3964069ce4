/-
# The grammar of expressions

Which lists of tokens spell an expression, and which one, said by rules that know
nothing of reading:

    disjunction := conjunction | disjunction OR conjunction
    conjunction := unary | conjunction AND unary
    unary       := NOT unary | primary
    primary     := ( disjunction )
                 | NAME | QUOTED
                 | TAG:PATTERN | TAG: QUOTED

An expression is a disjunction.  `OR` and `AND` are written with the operand on their
left, so that a row of equal operators groups to the left, and `NOT` takes the smallest
operand.  Parentheses leave no group behind (`Derives.groupless_eq`).

Between two operands there is always an operator: no token that ends an operand stands
right before one that begins an operand (`Derives.keptApart`).
-/

import Mathlib.Data.List.Chain
import MusicCollections.Expression.Token
import MusicCollections.Expression.Basic

namespace MusicCollections

/-! ## Names of tags -/

/-- Lower-casing keeps colons. -/
theorem Text.colon_mem_asciiLower {s : String} (h : ':' ∈ s.toList) :
    ':' ∈ (Text.asciiLower s).toList := by
  rw [Text.asciiLower, String.toList_ofList]
  exact List.mem_map.2 ⟨':', h, rfl⟩

namespace Tag

/-- The names of tags are in lower case. -/
theorem asciiLower_name (tag : Tag) : Text.asciiLower tag.name = tag.name := by
  cases tag <;> rfl

/-- **A tag is known by its name, whatever the case of the ASCII letters.** -/
theorem ofName?_eq_some_iff {name : String} {tag : Tag} :
    ofName? name = some tag ↔ Text.asciiLower name = tag.name := by
  constructor
  · intro h
    have hequal := List.find?_some h
    rw [Text.equalIgnoringAsciiCase, asciiLower_name, beq_iff_eq] at hequal
    exact hequal.symm
  · intro h
    have hfind : ofName? name = all.find? fun t => t.name == tag.name := by
      simp only [ofName?, Text.equalIgnoringAsciiCase, asciiLower_name, h]
    rw [hfind]
    cases tag <;> rfl

/-- A name that spells a tag has no colon. -/
theorem colon_not_mem {name : String} {tag : Tag} (h : Text.asciiLower name = tag.name) :
    ':' ∉ name.toList := by
  intro hmem
  have hlower := Text.colon_mem_asciiLower hmem
  rw [h] at hlower
  revert hlower
  cases tag <;> decide

end Tag

namespace Expression

/-- Whether no group is in the expression. -/
def groupless : Expression → Bool
  | .ref _ | .filter _ _ => true
  | .complement e => e.groupless
  | .both l r | .either l r => l.groupless && r.groupless
  | .group _ => false

end Expression

/-! ## Derivations -/

namespace Grammar

/-- What a part of an expression may be without parentheses around it. -/
inductive Level where
  | disjunction
  | conjunction
  | unary
  | primary

/-- How loose the operators of a level are. -/
def Level.looseness : Level → Nat
  | .primary => 0
  | .unary => 1
  | .conjunction => 2
  | .disjunction => 3

/-- The tokens spell the expression, as a part of the level. -/
inductive Derives : Level → List TokenKind → Expression → Prop
  | ofConjunction {ks e} : Derives .conjunction ks e → Derives .disjunction ks e
  | either {ks ks' l r} : Derives .disjunction ks l → Derives .conjunction ks' r →
      Derives .disjunction (ks ++ .or :: ks') (.either l r)
  | ofUnary {ks e} : Derives .unary ks e → Derives .conjunction ks e
  | both {ks ks' l r} : Derives .conjunction ks l → Derives .unary ks' r →
      Derives .conjunction (ks ++ .and :: ks') (.both l r)
  | ofPrimary {ks e} : Derives .primary ks e → Derives .unary ks e
  | complement {ks e} : Derives .unary ks e → Derives .unary (.not :: ks) (.complement e)
  | group {ks e} : Derives .disjunction ks e →
      Derives .primary (.opening :: (ks ++ [.closing])) e
  | name {name} : ':' ∉ name.toList → Derives .primary [.word name] (.ref name)
  | quotedName {name} : Derives .primary [.quoted name] (.ref name)
  /-- The name of a tag has no colon, so this one is the first of the word. -/
  | filter {tagName tag pattern} : Text.asciiLower tagName = Tag.name tag → pattern ≠ "" →
      Derives .primary [.word (tagName ++ ":" ++ pattern)] (.filter tag pattern)
  | quotedFilter {tagName tag pattern} : Text.asciiLower tagName = Tag.name tag →
      Derives .primary [.word (tagName ++ ":"), .quoted pattern] (.filter tag pattern)

/-- The tokens spell the expression. -/
def Spells (ks : List TokenKind) (e : Expression) : Prop := Derives .disjunction ks e

/-- A tag and a colon, after which the pattern is still missing. -/
def LacksPattern (word : String) : Prop :=
  ∃ tagName : String, word = tagName ++ ":" ∧ ':' ∉ tagName.toList

/-- An operand may end in the token. -/
def EndsOperand : TokenKind → Prop
  | .word word => ¬LacksPattern word
  | .quoted _ | .closing => True
  | _ => False

/-- An operand may begin with the token. -/
def BeginsOperand : TokenKind → Prop
  | .word _ | .quoted _ | .not | .opening => True
  | _ => False

/-- No operand ends in the first token where another begins with the second. -/
def KeptApart (k k' : TokenKind) : Prop := EndsOperand k → ¬BeginsOperand k'

/-- Anything may stand after a token that no operand ends in. -/
theorem KeptApart.cons {k : TokenKind} {ks : List TokenKind} (hends : ¬EndsOperand k)
    (h : ks.IsChain KeptApart) : (k :: ks).IsChain KeptApart :=
  List.isChain_cons.2 ⟨fun _ _ hk => absurd hk hends, h⟩

/-- Anything may stand before a token that no operand begins with. -/
theorem KeptApart.append {k : TokenKind} {ks ks' : List TokenKind} (hbegins : ¬BeginsOperand k)
    (h : ks.IsChain KeptApart) (h' : (k :: ks').IsChain KeptApart) :
    (ks ++ k :: ks').IsChain KeptApart := by
  refine List.isChain_append.2 ⟨h, h', fun a _ b hb _ => ?_⟩
  obtain rfl : k = b := by simpa using hb
  exact hbegins

namespace Derives

variable {level : Level} {ks : List TokenKind} {e : Expression}

/-- A part of a level is also one of every looser level. -/
theorem loosen {place : Level} (h : Derives level ks e)
    (hle : level.looseness ≤ place.looseness) : Derives place ks e := by
  cases level with
  | primary =>
    have hunary : Derives .unary ks e := .ofPrimary h
    cases place with
    | primary => exact h
    | unary => exact hunary
    | conjunction => exact .ofUnary hunary
    | disjunction => exact .ofConjunction (.ofUnary hunary)
  | unary =>
    cases place with
    | primary => exact absurd hle (by decide)
    | unary => exact h
    | conjunction => exact .ofUnary h
    | disjunction => exact .ofConjunction (.ofUnary h)
  | conjunction =>
    cases place with
    | primary | unary => exact absurd hle (by decide)
    | conjunction => exact h
    | disjunction => exact .ofConjunction h
  | disjunction =>
    cases place with
    | primary | unary | conjunction => exact absurd hle (by decide)
    | disjunction => exact h

/-- The grammar derives trees without groups. -/
theorem groupless_eq (h : Derives level ks e) : e.groupless = true := by
  induction h with
  | ofConjunction _ ih | ofUnary _ ih | ofPrimary _ ih | complement _ ih | group _ ih => exact ih
  | either _ _ ihl ihr | both _ _ ihl ihr => simp [Expression.groupless, ihl, ihr]
  | name | quotedName | filter | quotedFilter => rfl

/-- Every expression has a token. -/
theorem ne_nil (h : Derives level ks e) : ks ≠ [] := by
  induction h with
  | ofConjunction _ ih | ofUnary _ ih | ofPrimary _ ih => exact ih
  | either | both | complement | group | name | quotedName | filter | quotedFilter => simp

/-- No primary begins with `NOT`. -/
theorem head_ne_not {k : TokenKind} (h : Derives .primary (k :: ks) e) : k ≠ .not := by
  cases h <;> simp

/-- The end is no part of an expression. -/
theorem finish_not_mem (h : Derives level ks e) : .finish ∉ ks := by
  induction h with
  | ofConjunction _ ih | ofUnary _ ih | ofPrimary _ ih => exact ih
  | either _ _ ihl ihr | both _ _ ihl ihr => simp [ihl, ihr]
  | complement _ ih | group _ ih => simp [ih]
  | name | quotedName | filter | quotedFilter => simp

/-- **Two operands never stand next to each other.** -/
theorem keptApart (h : Derives level ks e) : ks.IsChain KeptApart := by
  induction h with
  | ofConjunction _ ih | ofUnary _ ih | ofPrimary _ ih => exact ih
  | either _ _ ihl ihr => exact KeptApart.append id ihl (KeptApart.cons id ihr)
  | both _ _ ihl ihr => exact KeptApart.append id ihl (KeptApart.cons id ihr)
  | complement _ ih => exact KeptApart.cons id ih
  | group _ ih => exact KeptApart.cons id (KeptApart.append id ih (List.isChain_singleton _))
  | name | quotedName | filter => exact List.isChain_singleton _
  | quotedFilter htag =>
    exact List.isChain_pair.2 fun hends _ => hends ⟨_, rfl, Tag.colon_not_mem htag⟩

end Derives
end Grammar
end MusicCollections

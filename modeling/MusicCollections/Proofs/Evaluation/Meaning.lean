/-
# What expressions denote

The meaning of an expression is a set of tracks, and depends on two things alone:
the catalog with its stored playlists, and the texts of the collections.
`Denotes` gives it by rules, one for each form of expression; a name of a
collection denotes what the text of the collection denotes, so a derivation goes
down through the collections that it names and has no place for a cycle.

An expression denotes at most one set (`Denotes.unique`).  One that denotes a set
leads to no cycle: following references from it ends (`Denotes.acc`).
-/

import Mathlib.Data.Set.Basic
import Mathlib.Logic.Relation
import MusicCollections.Proofs.Catalog
import MusicCollections.Store.Evaluation

namespace MusicCollections

/-- The texts of the collections by name. -/
abbrev Texts := String → Option String

/-- The texts of a list of collections, of which the first of each name counts. -/
def Collection.texts (collections : List Collection) : Texts :=
  fun name => (find? collections name).map Collection.expression

/-- The texts of the collections of a store. -/
def Store.texts (store : Store) : Texts := Collection.texts store.collections

namespace Evaluation

/-- The name stands in the expression for a collection: it is neither `all` nor a
stored playlist. -/
def LooksUp (catalog : Catalog) (e : Expression) (name : String) : Prop :=
  name ∈ e.namesIn ∧ catalog.playlist? name = none

/-- The text of collection `a` refers to collection `b`, by a name that is neither
`all` nor a stored playlist. -/
def Refers (catalog : Catalog) (texts : Texts) (a b : String) : Prop :=
  ∃ text e, texts a = some text ∧ parseExpression text = .ok e ∧ LooksUp catalog e b

/-- What an expression denotes, as a set of tracks of the catalog. -/
inductive Denotes (catalog : Catalog) (texts : Texts) : Expression → Set Track → Prop
  | all : Denotes catalog texts (.ref Expression.allName) {t | t ∈ catalog.tracks}
  | playlist {name files} :
      name ≠ Expression.allName → catalog.playlist? name = some files →
      Denotes catalog texts (.ref name) {t | t ∈ catalog.tracks ∧ t.file ∈ files}
  | collection {name text e s} :
      name ≠ Expression.allName → catalog.playlist? name = none →
      texts name = some text → parseExpression text = .ok e →
      Denotes catalog texts e s → Denotes catalog texts (.ref name) s
  | filter {tag pattern} :
      Denotes catalog texts (.filter tag pattern)
        {t | t ∈ catalog.tracks ∧ tag.matches t pattern = true}
  | complement {e s} :
      Denotes catalog texts e s →
      Denotes catalog texts (.complement e) {t | t ∈ catalog.tracks ∧ t ∉ s}
  | both {l r s u} :
      Denotes catalog texts l s → Denotes catalog texts r u →
      Denotes catalog texts (.both l r) (s ∩ u)
  | either {l r s u} :
      Denotes catalog texts l s → Denotes catalog texts r u →
      Denotes catalog texts (.either l r) (s ∪ u)
  | group {e s} : Denotes catalog texts e s → Denotes catalog texts (.group e) s

section Names

variable {catalog : Catalog} {name n : String} {l r e : Expression}

/-- A name is looked up among the collections unless it is `all` or a playlist. -/
theorem looksUp_ref :
    LooksUp catalog (.ref name) n ↔
      n = name ∧ name ≠ Expression.allName ∧ catalog.playlist? name = none := by
  unfold LooksUp Expression.namesIn
  split
  · simp [*]
  · rename_i h
    rw [List.mem_singleton]
    constructor
    · rintro ⟨rfl, hn⟩
      exact ⟨rfl, h, hn⟩
    · rintro ⟨rfl, -, hn⟩
      exact ⟨rfl, hn⟩

theorem looksUp_complement : LooksUp catalog (.complement e) n ↔ LooksUp catalog e n := Iff.rfl

theorem looksUp_group : LooksUp catalog (.group e) n ↔ LooksUp catalog e n := Iff.rfl

/-- An intersection looks up the names of both operands. -/
theorem looksUp_both :
    LooksUp catalog (.both l r) n ↔ LooksUp catalog l n ∨ LooksUp catalog r n := by
  simp [LooksUp, Expression.namesIn, or_and_right]

/-- So does a union. -/
theorem looksUp_either :
    LooksUp catalog (.either l r) n ↔ LooksUp catalog l n ∨ LooksUp catalog r n := by
  simp [LooksUp, Expression.namesIn, or_and_right]

end Names

variable {catalog : Catalog} {texts : Texts}

/-- **An expression denotes at most one set.** -/
theorem Denotes.unique {e : Expression} {s u : Set Track} (h : Denotes catalog texts e s) :
    Denotes catalog texts e u → s = u := by
  induction h generalizing u with
  | all =>
    rintro (_ | ⟨hn, -⟩ | ⟨hn, -, -, -, -⟩)
    · rfl
    · exact absurd rfl hn
    · exact absurd rfl hn
  | playlist hn hp =>
    rintro (_ | ⟨-, hp'⟩ | ⟨-, hp', -, -, -⟩)
    · exact absurd rfl hn
    · rw [Option.some.inj (hp.symm.trans hp')]
    · exact absurd (hp.symm.trans hp') (Option.some_ne_none _)
  | collection hn hp ht he _ ih =>
    rintro (_ | ⟨-, hp'⟩ | ⟨-, -, ht', he', hs'⟩)
    · exact absurd rfl hn
    · exact absurd (hp.symm.trans hp') (Option.some_ne_none _).symm
    · obtain rfl := Option.some.inj (ht.symm.trans ht')
      obtain rfl := Except.ok.inj (he.symm.trans he')
      exact ih hs'
  | filter =>
    rintro ⟨⟩
    rfl
  | complement _ ih =>
    rintro (_ | _ | _ | _ | hs)
    rw [ih hs]
  | both _ _ ihl ihr =>
    rintro (_ | _ | _ | _ | _ | ⟨hl, hr⟩)
    rw [ihl hl, ihr hr]
  | either _ _ ihl ihr =>
    rintro (_ | _ | _ | _ | _ | _ | ⟨hl, hr⟩)
    rw [ihl hl, ihr hr]
  | group _ ih =>
    rintro (_ | _ | _ | _ | _ | _ | _ | hs)
    exact ih hs

/-- An expression denotes tracks of the catalog. -/
theorem Denotes.subset {e : Expression} {s : Set Track} (h : Denotes catalog texts e s) :
    ∀ t ∈ s, t ∈ catalog.tracks := by
  induction h with
  | all => exact fun _ ht => ht
  | playlist => exact fun _ ht => ht.1
  | collection _ _ _ _ _ ih => exact ih
  | filter => exact fun _ ht => ht.1
  | complement => exact fun _ ht => ht.1
  | both _ _ ihl _ => exact fun t ht => ihl t ht.1
  | either _ _ ihl ihr => exact fun t ht => ht.elim (ihl t) (ihr t)
  | group _ ih => exact ih

/-- **Where an expression denotes a set, following references ends.** -/
theorem Denotes.acc {e : Expression} {s : Set Track} (h : Denotes catalog texts e s) {n : String} :
    LooksUp catalog e n → Acc (fun b a => Refers catalog texts a b) n := by
  induction h generalizing n with
  | all =>
    rw [looksUp_ref]
    exact fun h => absurd rfl h.2.1
  | playlist _ hp =>
    rw [looksUp_ref]
    exact fun h => absurd (hp.symm.trans h.2.2) (Option.some_ne_none _)
  | collection _ _ ht he _ ih =>
    rw [looksUp_ref]
    rintro ⟨rfl, -⟩
    refine Acc.intro _ fun b ⟨text, e, ht', he', hb⟩ => ?_
    obtain rfl := Option.some.inj (ht.symm.trans ht')
    obtain rfl := Except.ok.inj (he.symm.trans he')
    exact ih hb
  | filter => exact fun h => absurd h.1 List.not_mem_nil
  | complement _ ih => exact fun h => ih (looksUp_complement.1 h)
  | both _ _ ihl ihr =>
    rw [looksUp_both]
    exact fun h => h.elim ihl ihr
  | either _ _ ihl ihr =>
    rw [looksUp_either]
    exact fun h => h.elim ihl ihr
  | group _ ih => exact fun h => ih (looksUp_group.1 h)

/-- Nothing from which following references ends refers back to itself. -/
theorem not_cyclic_of_acc {n : String} (h : Acc (fun b a => Refers catalog texts a b) n) :
    ¬Relation.TransGen (Refers catalog texts) n n := by
  have hacc : Acc (Relation.TransGen fun b a => Refers catalog texts a b) n := h.transGen
  intro hcycle
  have hback := Relation.transGen_swap.2 hcycle
  clear hcycle h
  induction hacc with
  | intro n _ ih => exact ih n hback hback

/-- **No name that an expression with a meaning looks up refers back to itself.** -/
theorem Denotes.not_cyclic {e : Expression} {s : Set Track} (h : Denotes catalog texts e s)
    {n : String} (hn : LooksUp catalog e n) : ¬Relation.TransGen (Refers catalog texts) n n :=
  not_cyclic_of_acc (h.acc hn)

end Evaluation
end MusicCollections

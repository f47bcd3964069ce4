/-
# Named collections

A collection binds a name to the text of an expression.  The text counts; the
expression that it spells, the names that it refers to and the files that it
last selected are derived from it.  A text that spells no expression is kept,
and its error shows when the collection is evaluated.
-/

import MusicCollections.Store.Definitions

namespace MusicCollections

structure Collection where
  name : String
  /-- The text, as it was defined. -/
  expression : String
  /-- What the text spells, if it spells an expression. -/
  tree : Option Expression
  /-- The names that the expression refers to. -/
  dependencies : NameSet
  /-- The files that it selected when results were last refreshed. -/
  result : Option (List String) := none
  deriving DecidableEq, Repr

namespace Collection

/-- The collection of a text that spells `tree`. -/
def ofTree (name expression : String) (tree : Option Expression) : Collection :=
  { name, expression, tree, dependencies := (tree.map Expression.references).getD [] }

/-- The collection of a text. -/
def ofText (name expression : String) : Collection :=
  ofTree name expression (parseExpression expression).toOption

/-- The expression of a collection, or why its text spells none. -/
def parsed (c : Collection) : Except SyntaxError Expression :=
  match c.tree with
  | some tree => .ok tree
  | none => parseExpression c.expression

/-- The collection without its result. -/
def forget (c : Collection) : Collection := { c with result := none }

def definition (c : Collection) : Definition := (c.name, c.expression)

/-- Puts a collection in the place of the one of its name, or at the end. -/
def put (c : Collection) : List Collection → List Collection
  | [] => [c]
  | d :: rest => if d.name = c.name then c :: rest else d :: put c rest

/-- The collection of a name. -/
def find? (collections : List Collection) (name : String) : Option Collection :=
  List.find? (·.name == name) collections

/-- The collection that was put is found under its name. -/
theorem find?_put_self (c : Collection) (collections : List Collection) :
    find? (put c collections) c.name = some c := by
  induction collections with
  | nil => simp [put, find?]
  | cons d rest ih =>
    simp only [put]
    split
    · simp [find?]
    · rename_i h
      simpa [find?, beq_eq_false_iff_ne.2 h] using ih

/-- What is there after a collection was put is the collection, or was there before. -/
theorem mem_put {c d : Collection} {collections : List Collection} (h : d ∈ put c collections) :
    d = c ∨ d ∈ collections := by
  induction collections with
  | nil => exact .inl (List.mem_singleton.1 h)
  | cons b rest ih =>
    rw [put] at h
    split at h
    · exact (List.mem_cons.1 h).imp id (List.mem_cons_of_mem b)
    · rcases List.mem_cons.1 h with rfl | h
      · exact .inr List.mem_cons_self
      · exact (ih h).imp id (List.mem_cons_of_mem b)

/-- **Putting a collection keeps names distinct.** -/
theorem names_put_nodup {c : Collection} {collections : List Collection}
    (h : (collections.map Collection.name).Nodup) :
    ((put c collections).map Collection.name).Nodup := by
  induction collections with
  | nil => exact List.pairwise_singleton _ c.name
  | cons b rest ih =>
    obtain ⟨hnew, hrest⟩ := List.nodup_cons.1 h
    rw [put]
    split
    · rename_i hb
      exact List.nodup_cons.2 ⟨hb ▸ hnew, hrest⟩
    · rename_i hb
      refine List.nodup_cons.2 ⟨fun hmem => ?_, ih hrest⟩
      obtain ⟨d, hd, hname⟩ := List.mem_map.1 hmem
      rcases mem_put hd with rfl | hd
      · exact hb hname.symm
      · exact hnew (hname ▸ List.mem_map_of_mem hd)

end Collection

end MusicCollections

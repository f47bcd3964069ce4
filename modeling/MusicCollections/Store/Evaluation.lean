/-
# Evaluation

An expression selects a set of positions of the catalog:

| expression | positions |
| --- | --- |
| `all` | every one |
| the name of a stored playlist | those of its files |
| the name of a collection | those that its expression selects |
| a tag filter | those of the tracks that match |
| NOT, AND, OR | the complement, the intersection, the union |

The files come out in catalog order, each once, whatever the order of the
operands.  A collection is evaluated once in a request; if it has a result, that
stands for its expression.  A collection that is reached while it is being
evaluated closes a cycle, which is reported with the names on it.
-/

import MusicCollections.Catalog
import MusicCollections.Store.Basic

namespace MusicCollections

namespace Evaluation

/-- Collections with the positions that they select. -/
abbrev Memo := List (String × PositionSet)

/-- What is kept while requests are evaluated. -/
structure Evaluator where
  /-- The collections whose evaluation led here, outermost first. -/
  inProgress : List String := []
  /-- The collections evaluated so far. -/
  resolved : Memo := []

/-- A computation that keeps what was resolved, also when it fails. -/
abbrev EvalM := ExceptT EvalError (StateM Evaluator)

/-- The positions that an expression selects, where `ofName` gives those of a
name. -/
def select (catalog : Catalog) (ofName : String → EvalM PositionSet) :
    Expression → EvalM PositionSet
  | .ref name => ofName name
  | .filter tag pattern => pure (catalog.select tag pattern)
  | .complement e => do
    let set ← select catalog ofName e
    pure set.complement
  | .both l r => do
    let left ← select catalog ofName l
    let right ← select catalog ofName r
    pure (left.inter right)
  | .either l r => do
    let left ← select catalog ofName l
    let right ← select catalog ofName r
    pure (left.union right)
  | .group e => select catalog ofName e

/-- The positions of a name, where `ofCollection` gives those of a collection. -/
def selectName (catalog : Catalog) (collections : List Collection)
    (ofCollection : Collection → EvalM PositionSet) (name : String) : EvalM PositionSet :=
  if name = Expression.allName then pure (PositionSet.full catalog.size)
  else
    match catalog.playlist? name with
    | some files => pure (catalog.positionsOf files)
    | none =>
      match Collection.find? collections name with
      | some c => ofCollection c
      | none => throw (.unknownReference name)

/-- The cycle that reaching `name` closes, from its place among the names in
progress. -/
def closeCycle (inProgress : List String) (name : String) : List String :=
  inProgress.dropWhile (· != name) ++ [name]

/-- Evaluates inside a collection, and leaves it also if that fails. -/
def within {α : Type} (name : String) (act : EvalM α) : EvalM α :=
  ExceptT.mk do
    modify fun evaluator => { evaluator with inProgress := evaluator.inProgress ++ [name] }
    let outcome ← act.run
    modify fun evaluator => { evaluator with inProgress := evaluator.inProgress.dropLast }
    pure outcome

/-- The positions of a collection.  The collections in progress are distinct, so
`depth` beyond the number of collections is not used up. -/
def selectCollection (catalog : Catalog) (collections : List Collection) :
    (depth : Nat) → Collection → EvalM PositionSet
  | 0, c => do
    let evaluator ← get
    throw (.store (.cycle (closeCycle evaluator.inProgress c.name)))
  | depth + 1, c => do
    let evaluator ← get
    match evaluator.resolved.lookup c.name with
    | some set => pure set
    | none =>
      if evaluator.inProgress.contains c.name then
        throw (.store (.cycle (closeCycle evaluator.inProgress c.name)))
      else
        let set ←
          match c.result with
          | some files => pure (catalog.positionsOf files)
          | none =>
            match c.parsed with
            | .error e => throw (.store (.invalidExpression c.name e))
            | .ok tree =>
              let ofCollection := selectCollection catalog collections depth
              within c.name (select catalog (selectName catalog collections ofCollection) tree)
        modify fun evaluator =>
          { evaluator with resolved := (c.name, set) :: evaluator.resolved }
        pure set

/-- Depth that no evaluation exceeds. -/
def depthFor (collections : List Collection) : Nat := collections.length + 1

/-- The files of an expression. -/
def files (catalog : Catalog) (collections : List Collection) (e : Expression) :
    EvalM (List String) := do
  let ofCollection := selectCollection catalog collections (depthFor collections)
  let set ← select catalog (selectName catalog collections ofCollection) e
  pure (catalog.filesAt set)

/-- The files of the collection of a name. -/
def collectionFiles (catalog : Catalog) (collections : List Collection) (name : String) :
    EvalM (List String) :=
  match Collection.find? collections name with
  | none => throw (.store (.notFound name))
  | some c => do
    let set ← selectCollection catalog collections (depthFor collections) c
    pure (catalog.filesAt set)

/-- The outcome of a computation that begins with nothing resolved or in progress. -/
def run {α : Type} (act : EvalM α) : Except EvalError α := (act.run.run {}).1

end Evaluation

/-- The files that an expression selects, in catalog order. -/
def evaluate (catalog : Catalog) (store : Store) (e : Expression) :
    Except EvalError (List String) :=
  Evaluation.run (Evaluation.files catalog store.collections e)

namespace Store

/-- The files that the collection of a name selects. -/
def resolve (store : Store) (catalog : Catalog) (name : String) :
    Except EvalError (List String) :=
  Evaluation.run (Evaluation.collectionFiles catalog store.collections name)

end Store

end MusicCollections

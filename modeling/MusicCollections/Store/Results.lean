/-
# Refreshing results

Every collection is evaluated anew, all in one request, and keeps the files it
selects as its result.  One that fails has no result.
-/

import MusicCollections.Store.Evaluation

namespace MusicCollections
namespace Store

/-- The outcomes of the collections named, one after the other, with one evaluator. -/
def outcomes (catalog : Catalog) (collections : List Collection) :
    List String → StateM Evaluation.Evaluator (List (String × Except EvalError (List String)))
  | [] => pure []
  | name :: names => do
    let outcome ← (Evaluation.collectionFiles catalog collections name).run
    let rest ← outcomes catalog collections names
    pure ((name, outcome) :: rest)

/-- Gives the first collection of a name its result. -/
def setResult (name : String) (files : List String) : List Collection → List Collection
  | [] => []
  | c :: rest =>
    if c.name = name then { c with result := some files } :: rest
    else c :: setResult name files rest

/-- Keeps the files of the outcomes as results. -/
def keepResults (outcomes : List (String × Except EvalError (List String)))
    (collections : List Collection) : List Collection :=
  outcomes.foldl (fun cs (name, outcome) =>
    match outcome with
    | .ok files => setResult name files cs
    | .error _ => cs) collections

/-- The failures among the outcomes. -/
def failures (outcomes : List (String × Except EvalError (List String))) :
    List (String × EvalError) :=
  outcomes.filterMap fun (name, outcome) =>
    match outcome with
    | .ok _ => none
    | .error e => some (name, e)

/-- Evaluates every collection anew; gives the failures, in store order. -/
def refreshResults (catalog : Catalog) (store : Store) : List (String × EvalError) × Store :=
  let cleared := store.clearResults
  let outcomes := ((outcomes catalog cleared.collections cleared.names).run {}).1
  (failures outcomes,
    { cleared with collections := keepResults outcomes cleared.collections })

end Store
end MusicCollections

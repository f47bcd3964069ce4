/-
# Commands on collections
-/

import MusicCollections.Command.Listing

namespace MusicCollections
namespace Session

variable {φ κ δ : Type} [Files φ] [Cache κ]

/-- Lists the definitions. -/
def listCollections (s : Session φ κ δ) : Report :=
  { out := s.store.definitions.map fun (name, expression) => name ++ " = " ++ expression }

/-- The failure of a definition.  What is wrong with its expression is told
without its name, which the user has just given. -/
def definitionFailure : StoreError → Failure
  | .invalidExpression _ e => .ofCause (.expression e)
  | e => .ofCause (.store e)

/-- Defines a collection. -/
def defineCollection (name : String) (words : Words) (s : Session φ κ δ) :
    Report × Session φ κ δ :=
  let (outcome, store) := s.store.define name words.text
  (.ofResult (outcome.mapError definitionFailure), { s with store })

/-- Deletes a collection. -/
def deleteCollection (name : String) (s : Session φ κ δ) : Report × Session φ κ δ :=
  let (outcome, store) := s.store.delete name
  let result := (outcome.map fun _ => ()).mapError fun e => Failure.ofCause (.store e)
  (.ofResult result, { s with store })

/-- Resolves every collection and reports the failures. -/
def checkCollections (s : Session φ κ δ) : Report × Session φ κ δ :=
  let (failures, s) := s.refreshResults
  let report : Report :=
    { err := failures.map fun (name, e) => name ++ ": " ++ e.message
      out := [toString s.store.size ++ " collections, " ++ toString failures.length ++ " failed"]
      result :=
        if failures.isEmpty then .ok ()
        else .error (.ofCause (.command (.unresolved failures.length))) }
  (report, s)

/-- Carries out an action on collections. -/
def actOnCollections (columns : List Tag) (action : CollectionsAction) (s : Session φ κ δ) :
    Report × Session φ κ δ :=
  match action with
  | .list => (s.listCollections, s)
  | .showTracks texts => (s.showTracks columns texts, s)
  | .define name words => s.defineCollection name words
  | .delete name => s.deleteCollection name
  | .check => s.checkCollections

end Session
end MusicCollections

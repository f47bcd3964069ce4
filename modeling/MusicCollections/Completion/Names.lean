/-
# Completing names of collections

The names in a definitions file, as they are written in an expression, each once
and in ascending order.  They are read without the daemon.
-/

import MusicCollections.Failure
import MusicCollections.Store.Definitions

namespace MusicCollections
namespace Completion

/-- A name as an expression refers to it: quoted if it holds white space. -/
def spell (name : String) : String :=
  if name.toList.any Text.isBlank then "\"" ++ name ++ "\"" else name

/-- The names in the text of a definitions file. -/
def namesIn (text : String) : NameSet :=
  NameSet.ofList ((Definitions.parse text).map fun (name, _) => spell name)

/-- The names in a definitions file, none if there is no file. -/
def names {φ : Type} [Files φ] (files : φ) (path : Path) : Except Failure NameSet :=
  if Files.present files path then
    match Files.readText files path with
    | .error e => .error ((Failure.ofCause (.io e)).within (.reading path))
    | .ok text => .ok (namesIn text)
  else .ok []

end Completion
end MusicCollections

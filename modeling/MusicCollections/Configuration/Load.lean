/-
# Loading the configuration
-/

import MusicCollections.Configuration.Basic
import MusicCollections.Configuration.Locations

namespace MusicCollections
namespace Configuration

variable {φ : Type} [Files φ]

/-- The configuration in a file. -/
def read (files : φ) (path : Path) : Except Failure Configuration :=
  match Files.readText files path with
  | .error e => .error ((Failure.ofCause (.io e)).within (.readingConfig path))
  | .ok text => (ofText text).mapError (Failure.within (.checkingConfig path))

/-- The configuration in the file named, which must be there, or else in the
usual file, or else the default one. -/
def load (e : Environment) (path? : Option Path) : Effect φ Configuration := do
  match path? with
  | some path => .ofState (read · path)
  | none =>
    let directory ← e.configDirectory
    let path := Path.join directory "config.json"
    .ofState fun files => if Files.present files path then read files path else .ok {}

/-- Makes an empty file, unless there is something at the path. -/
def createEmpty (path : Path) : Effect φ Unit :=
  .ofFunction fun files =>
    if Files.present files path then (.ok (), files)
    else
      let (outcome, files) := Files.write path (.text "") files
      (outcome.mapError fun e => (Failure.ofCause (.io e)).within (.creating path), files)

/-- The definitions file that the configuration names, or else the usual one,
which is made if it is missing. -/
def collectionsPath (e : Environment) (c : Configuration) : Effect φ Path := do
  match c.collections with
  | some path =>
    .ofState fun _ => (e.resolvePath path).mapError fun fault => .ofCause (.config fault)
  | none =>
    let directory ← e.configDirectory
    let path := Path.join directory "collections.mpdc"
    createEmpty path
    pure path

end Configuration
end MusicCollections
